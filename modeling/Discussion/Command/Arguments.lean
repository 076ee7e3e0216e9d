/-!
# Arguments

How the words of a command line are sorted into options and operands.  An option
has a long name and may have a short one.  Its value is attached, or is the next
word unless that starts with a hyphen; a single hyphen is an ordinary word.  All
words after two hyphens are operands.  Only counted options may be repeated.
-/

namespace Discussion

namespace Arguments

/-- What an option takes. -/
inductive Kind
  /-- Nothing; the option is given or not. -/
  | flag
  /-- Nothing; the option may be repeated. -/
  | counted
  | value
deriving DecidableEq, Repr

/-- An option of a command. -/
structure Spec where
  long : String
  short : Option Char := none
  kind : Kind
deriving DecidableEq, Repr

/-- The options that were given, and the words that are no options. -/
structure Sorted where
  given : List (String × Option String) := []
  operands : List String := []
  /-- The words after the first operand, if sorting stopped there. -/
  rest : List String := []
deriving DecidableEq, Repr

namespace Sorted

/-- How many times an option was given. -/
def count (sorted : Sorted) (name : String) : Nat :=
  sorted.given.countP fun (long, _) => long == name

/-- Whether an option was given. -/
def has (sorted : Sorted) (name : String) : Bool :=
  0 < sorted.count name

/-- The value of an option, if it was given. -/
def value? (sorted : Sorted) (name : String) : Option String :=
  (sorted.given.lookup name).join

end Sorted

/-- The option with a long name. -/
def long? (specs : List Spec) (name : List Char) : Option Spec :=
  specs.find? fun spec => spec.long.toList == name

/-- The option with a short name. -/
def short? (specs : List Spec) (name : Char) : Option Spec :=
  specs.find? fun spec => spec.short == some name

/-- Whether a word cannot be the value of the option before it. -/
def looksLikeOption (word : String) : Bool :=
  word.toList.head? == some '-' && word != "-"

/-- What one word asks for. -/
inductive Word
  | operand
  /-- The two hyphens after which all words are operands. -/
  | endOfOptions
  | options (given : List (String × Option String))
  /-- Options, the last of which has the next word as its value. -/
  | awaiting (given : List (String × Option String)) (name : String)
deriving DecidableEq, Repr

/-- The options of a word of one hyphen and short names. -/
def readCluster? (specs : List Spec) (given : List (String × Option String)) :
    List Char → Option Word
  | [] => some (.options given)
  | c :: rest => do
      let spec ← short? specs c
      match spec.kind with
      | .value =>
          match rest with
          | [] => some (.awaiting given spec.long)
          | '=' :: value => some (.options (given ++ [(spec.long, some (String.ofList value))]))
          | value => some (.options (given ++ [(spec.long, some (String.ofList value))]))
      | _ => readCluster? specs (given ++ [(spec.long, none)]) rest

/-- The option of a word after its two hyphens. -/
def readLong? (specs : List Spec) (word : List Char) : Option Word := do
  let name := word.takeWhile (· != '=')
  let spec ← long? specs name
  match spec.kind, word.dropWhile (· != '=') with
  | .value, [] => some (.awaiting [] spec.long)
  | .value, _ :: value => some (.options [(spec.long, some (String.ofList value))])
  | _, [] => some (.options [(spec.long, none)])
  | _, _ :: _ => none

/-- What a word asks for, `none` for an option that does not exist. -/
def readWord? (specs : List Spec) (word : String) : Option Word :=
  match word.toList with
  | ['-', '-'] => some .endOfOptions
  | '-' :: '-' :: name => readLong? specs name
  | '-' :: c :: cluster => readCluster? specs [] (c :: cluster)
  | _ => some .operand

/-- Sorts words, up to the first operand or all of them. -/
def sortFrom (specs : List Spec) (toFirst : Bool) (sorted : Sorted) :
    List String → Option Sorted
  | [] => some sorted
  | word :: rest => do
      match ← readWord? specs word with
      | .operand =>
          let sorted := { sorted with operands := sorted.operands ++ [word] }
          if toFirst then some { sorted with rest := rest }
          else sortFrom specs toFirst sorted rest
      | .endOfOptions =>
          if toFirst then none else some { sorted with operands := sorted.operands ++ rest }
      | .options given =>
          sortFrom specs toFirst { sorted with given := sorted.given ++ given } rest
      | .awaiting given name =>
          match rest with
          | [] => none
          | value :: rest =>
              if looksLikeOption value then none
              else
                sortFrom specs toFirst
                  { sorted with given := sorted.given ++ given ++ [(name, some value)] } rest

/-- Sorts words; an option that is not counted may be given once. -/
def sort (specs : List Spec) (toFirst : Bool) (words : List String) : Option Sorted := do
  let sorted ← sortFrom specs toFirst {} words
  if specs.all fun spec => spec.kind == .counted || sorted.count spec.long ≤ 1 then some sorted
  else none

end Arguments

end Discussion
