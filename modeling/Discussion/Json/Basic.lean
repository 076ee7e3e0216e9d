import Discussion.Text.Numeral

/-!
# JSON values

Values of the JSON data format as far as readers can tell them apart.  A numeral
without fraction and exponent is an integer if it fits a word, except `-0`.  Of any
other number as many leading digits are known as fit a word.  A string whose
characters cannot be recovered, such as half of a surrogate pair, is kept as
`none`: it may be skipped but not used.  Objects keep their members in order and
may repeat a key.
-/

namespace Discussion

/-- A JSON value. -/
inductive Json
  | null
  | bool (b : Bool)
  | integer (i : Int)
  /-- The number `± lead * 10 ^ exponent`. -/
  | decimal (negative : Bool) (lead : Nat) (exponent : Int)
  | string (s : Option String)
  | array (items : List Json)
  | object (members : List (Option String × Json))
deriving Repr, Inhabited

namespace Json

/-- A string all of whose characters are known. -/
def ofString (s : String) : Json :=
  .string (some s)

/-- An object all of whose keys are known. -/
def ofMembers (members : List (String × Json)) : Json :=
  .object (members.map fun (key, value) => (some key, value))

/-- The blanks between the tokens of a JSON text. -/
def isSpace (c : Char) : Bool :=
  c == ' ' || c == '\n' || c == '\t' || c == '\r'

/-- The number of nested arrays and objects that readers of data accept. -/
def maxNesting : Nat := 127

end Json

end Discussion
