import Discussion.Json.Basic

/-!
# Writing JSON

The compact and the indented text of a JSON value.  A function that writes takes
the text that follows, so that `write value rest` is the value's text before
`rest`.
-/

namespace Discussion

namespace Json

/-- The lower-case digit of a number below sixteen. -/
def hexDigit (n : Nat) : Char :=
  if n < 10 then Char.ofNat ('0'.toNat + n) else Char.ofNat ('a'.toNat + (n - 10))

/-- A character of a string: quotation marks, backslashes and control characters
are escaped, all others stand for themselves. -/
def writeChar (c : Char) (rest : List Char) : List Char :=
  if c = '"' then '\\' :: '"' :: rest
  else if c = '\\' then '\\' :: '\\' :: rest
  else if c = '\x08' then '\\' :: 'b' :: rest
  else if c = '\x0c' then '\\' :: 'f' :: rest
  else if c = '\n' then '\\' :: 'n' :: rest
  else if c = '\r' then '\\' :: 'r' :: rest
  else if c = '\t' then '\\' :: 't' :: rest
  else if c.toNat < 0x20 then
    '\\' :: 'u' :: '0' :: '0' :: hexDigit (c.toNat / 16) :: hexDigit (c.toNat % 16) :: rest
  else c :: rest

/-- A string between quotation marks.  One that is not known is written as half of
a surrogate pair. -/
def writeString (s : Option String) (rest : List Char) : List Char :=
  match s with
  | some s => '"' :: s.toList.foldr writeChar ('"' :: rest)
  | none => '"' :: '\\' :: 'u' :: 'd' :: '8' :: '0' :: '0' :: '"' :: rest

/-- The text of a truth value. -/
def boolText (b : Bool) : List Char :=
  if b then ['t', 'r', 'u', 'e'] else ['f', 'a', 'l', 's', 'e']

/-- The text of a value that is no array and no object. -/
def writeScalar : Json → List Char → List Char
  | .null, rest => 'n' :: 'u' :: 'l' :: 'l' :: rest
  | .bool b, rest => boolText b ++ rest
  | .integer i, rest => (signedDecimal i).toList ++ rest
  | .decimal negative lead exponent, rest =>
      (if negative then ['-'] else []) ++
        (numeral lead ++ ('e' :: ((signedDecimal exponent).toList ++ rest)))
  | .string s, rest => writeString s rest
  | .array _, rest => rest
  | .object _, rest => rest

mutual

/-- The compact text of a value. -/
def writeCompact : Json → List Char → List Char
  | .array [], rest => '[' :: ']' :: rest
  | .array (item :: items), rest =>
      '[' :: writeCompact item (writeCompactItems items (']' :: rest))
  | .object [], rest => '\x7b' :: '\x7d' :: rest
  | .object ((key, value) :: members), rest =>
      '\x7b' :: writeString key
        (':' :: writeCompact value (writeCompactMembers members ('\x7d' :: rest)))
  | scalar, rest => writeScalar scalar rest

/-- The items of an array after its first, each after a comma. -/
def writeCompactItems : List Json → List Char → List Char
  | [], rest => rest
  | item :: items, rest => ',' :: writeCompact item (writeCompactItems items rest)

/-- The members of an object after its first, each after a comma. -/
def writeCompactMembers : List (Option String × Json) → List Char → List Char
  | [], rest => rest
  | (key, value) :: members, rest =>
      ',' :: writeString key (':' :: writeCompact value (writeCompactMembers members rest))

end

/-- A new line at a level of indentation, two blanks for each level. -/
def newLine (level : Nat) (rest : List Char) : List Char :=
  '\n' :: (List.replicate (2 * level) ' ' ++ rest)

mutual

/-- The indented text of a value at a level: every item and member on a line of
its own, empty arrays and objects on one. -/
def writePretty (level : Nat) : Json → List Char → List Char
  | .array [], rest => '[' :: ']' :: rest
  | .array (item :: items), rest =>
      '[' :: newLine (level + 1) (writePretty (level + 1) item
        (writePrettyItems (level + 1) items (newLine level (']' :: rest))))
  | .object [], rest => '\x7b' :: '\x7d' :: rest
  | .object ((key, value) :: members), rest =>
      '\x7b' :: newLine (level + 1) (writeString key (':' :: ' ' ::
        writePretty (level + 1) value
          (writePrettyMembers (level + 1) members (newLine level ('\x7d' :: rest)))))
  | scalar, rest => writeScalar scalar rest

/-- The items of an array after its first, each after a comma on a new line. -/
def writePrettyItems (level : Nat) : List Json → List Char → List Char
  | [], rest => rest
  | item :: items, rest =>
      ',' :: newLine level (writePretty level item (writePrettyItems level items rest))

/-- The members of an object after its first, each after a comma on a new line. -/
def writePrettyMembers (level : Nat) : List (Option String × Json) → List Char → List Char
  | [], rest => rest
  | (key, value) :: members, rest =>
      ',' :: newLine level (writeString key (':' :: ' ' ::
        writePretty level value (writePrettyMembers level members rest)))

end

/-- The compact text of a value as a string. -/
def compact (value : Json) : String :=
  String.ofList (writeCompact value [])

/-- The indented text of a value as a string. -/
def pretty (value : Json) : String :=
  String.ofList (writePretty 0 value [])

end Json

end Discussion
