import Discussion.Json.Basic
import Discussion.Text.Double

/-!
# Reading data from JSON values

How records, lists, enumerations and numbers of a program's data are read from
JSON values.  A decoder is told how many nested arrays and objects it may still
enter.  What it does not need it does not look at, with one exception: a record
whose fields are mixed with those of another can only be sorted out after all
members have been read (`isReadable`).
-/

namespace Discussion

/-- How a value is read from a JSON value, inside which a number of nested arrays
and objects may be entered. -/
abbrev Decoder (α : Type) := Nat → Json → Option α

namespace Json

/-! ## Single values -/

/-- An integer in the range of unsigned words. -/
def word : Decoder UInt64
  | _, .integer i => wordOfInt? i
  | _, _ => none

/-- An integer in the range of signed words. -/
def signedWord : Decoder Int64
  | _, .integer i => signedWordOfInt? i
  | _, _ => none

/-- A truth value. -/
def flag : Decoder Bool
  | _, .bool b => some b
  | _, _ => none

/-- A string all of whose characters are known. -/
def text : Decoder String
  | _, .string s => s
  | _, _ => none

/-- A value, or null for none. -/
def nullable {α : Type} (decode : Decoder α) : Decoder (Option α)
  | _, .null => some none
  | room, value => (decode room value).map some

/-- The items of an array, with the room inside it. -/
def items? : Nat → Json → Option (Nat × List Json)
  | room + 1, .array items => some (room, items)
  | _, _ => none

/-- An array of values. -/
def list {α : Type} (decode : Decoder α) : Decoder (List α) := fun room value => do
  let (inside, items) ← items? room value
  items.mapM (decode inside)

/-! ## Enumerations -/

/-- The name of a value of an enumeration: a string, or the only key of an object
with the value null. -/
def caseName? : Decoder String
  | _, .string s => s
  | _ + 1, .object [(key, .null)] => key
  | _, _ => none

/-- The value of an enumeration with a name. -/
def ofName? {α : Type} (all : List α) (name : α → String) (s : String) : Option α :=
  all.find? fun value => name value == s

/-- A value of an enumeration, given by its values and their names. -/
def enumeration {α : Type} (all : List α) (name : α → String) : Decoder α := fun room value =>
  (caseName? room value).bind (ofName? all name)

/-! ## Values that must be readable as a whole -/

mutual

/-- Whether a value can be read as a whole: its strings are known, its numbers are
not too large, and its nesting has room. -/
def isReadable : Nat → Json → Bool
  | _, .null => true
  | _, .bool _ => true
  | _, .integer _ => true
  | _, .decimal _ lead exponent => isFiniteProduct lead exponent
  | _, .string s => s.isSome
  | 0, .array _ => false
  | 0, .object _ => false
  | room + 1, .array items => areReadable room items
  | room + 1, .object members => areReadableMembers room members

/-- Whether every value of a list can be read. -/
def areReadable : Nat → List Json → Bool
  | _, [] => true
  | room, item :: items => isReadable room item && areReadable room items

/-- Whether every member of an object can be read. -/
def areReadableMembers : Nat → List (Option String × Json) → Bool
  | _, [] => true
  | room, (key, value) :: members =>
      key.isSome && isReadable room value && areReadableMembers room members

end

/-- The name of a value of an enumeration among values that were read as a whole,
where the only key of an object may also have an empty object as its value. -/
def mixedCaseName? : Decoder String
  | _, .string s => s
  | _, .object [(key, .null)] => key
  | _, .object [(key, .object [])] => key
  | _, _ => none

/-- A value of an enumeration among values that were read as a whole. -/
def mixedEnumeration {α : Type} (all : List α) (name : α → String) : Decoder α :=
  fun room value =>
    if isReadable room value then (mixedCaseName? room value).bind (ofName? all name) else none

/-! ## Records -/

/-- The fields of a record that were given, each once. -/
structure Fields where
  /-- The room inside the record. -/
  room : Nat
  given : List (String × Json)

namespace Fields

/-- The value of a field. -/
def get? (fields : Fields) (name : String) : Option Json :=
  fields.given.lookup name

/-- A field that must be given. -/
def required {α : Type} (fields : Fields) (name : String) (decode : Decoder α) : Option α := do
  decode fields.room (← fields.get? name)

/-- A field with a default value. -/
def withDefault {α : Type} (fields : Fields) (name : String) (decode : Decoder α) (default : α) :
    Option α :=
  match fields.get? name with
  | some value => decode fields.room value
  | none => some default

end Fields

/-- The members of an object whose keys are names of fields.  Every key must be
known as a string, and no field may be given twice. -/
def givenFields? (names : List String) (members : List (Option String × Json)) :
    Option (List (String × Json)) :=
  members.foldlM
    (fun given (key, value) =>
      match key with
      | none => none
      | some key =>
          if !names.contains key then some given
          else if (given.lookup key).isSome then none
          else some ((key, value) :: given))
    []

/-- The members of an object whose keys are no names of fields. -/
def otherMembers (names : List String) (members : List (Option String × Json)) :
    List (Option String × Json) :=
  members.filter fun (key, _) => !key.any names.contains

/-- The fields of a record, given by an object or by the array of their values in
order. -/
def record (names : List String) : Decoder Fields
  | room + 1, .object members =>
      (givenFields? names members).map fun given => { room := room, given := given }
  | room + 1, .array items =>
      if items.length ≤ names.length then some { room := room, given := names.zip items } else none
  | _, _ => none

/-- The fields of a record that shares its object with another record.  The members
that are not its own must be readable. -/
def mixedRecord (names : List String) : Decoder Fields
  | room + 1, .object members =>
      if areReadableMembers room (otherMembers names members) then
        (givenFields? names members).map fun given => { room := room, given := given }
      else none
  | _, _ => none

/-- A value of data from its JSON value. -/
def decode? {α : Type} (decoder : Decoder α) (value : Json) : Option α :=
  decoder maxNesting value

end Json

end Discussion
