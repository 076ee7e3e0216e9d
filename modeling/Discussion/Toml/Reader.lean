import Discussion.Toml.Document
import Discussion.Toml.Lexeme

/-!
# Reading TOML

The table of a TOML text.  Values nest through arrays and inline tables, up to a
depth; a document is a list of lines, each a header, a key with its value, or
blank.  Readers that repeat take a bound on their steps, for which the length of
the text is always enough.
-/

namespace Discussion

namespace Toml

/-- The text that was read on the way to the rest. -/
def consumed (cs rest : List Char) : String :=
  String.ofList (cs.take (cs.length - rest.length))

/-- A number or a date. -/
def readNumber? (cs : List Char) : Option (Toml × List Char) :=
  match readDate? cs with
  | some rest => some (.date (consumed cs rest), rest)
  | none =>
      match readFloat? cs with
      | some rest => some (.float (consumed cs rest), rest)
      | none => (readInteger? cs).map fun (i, rest) => (.integer i, rest)

/-- The last part of a key and the parts before it. -/
def splitKey? (key : List String) : Option (List String × String) :=
  match key.reverse with
  | last :: before => some (before.reverse, last)
  | [] => none

/-- A value that is neither an array nor a table. -/
def readScalar? (cs : List Char) : Option (Toml × List Char) :=
  match cs with
  | [] => none
  | c :: _ =>
      if c = '"' ∨ c = '\'' then (readString? cs).map fun (s, rest) => (.string s, rest)
      else if c = 't' then (dropWord? ['t', 'r', 'u', 'e'] cs).map fun rest => (.bool true, rest)
      else if c = 'f' then
        (dropWord? ['f', 'a', 'l', 's', 'e'] cs).map fun rest => (.bool false, rest)
      else readNumber? cs

mutual

/-- A value in which so many arrays and inline tables may nest. -/
def readValue? : Nat → Nat → List Char → Option (Toml × List Char)
  | 0, _, _ => none
  | steps + 1, room, cs =>
      match cs, room with
      | '[' :: rest, room + 1 => readItems? steps room [] rest
      | '\x7b' :: rest, room + 1 =>
          match skipInline rest with
          | '\x7d' :: rest => some (.table [], rest)
          | rest => readPairs? steps room [] rest
      | '[' :: _, 0 => none
      | '\x7b' :: _, 0 => none
      | _, _ => readScalar? cs

/-- The rest of an array, over several lines; a comma may stand before its end. -/
def readItems? : Nat → Nat → List Toml → List Char → Option (Toml × List Char)
  | 0, _, _, _ => none
  | steps + 1, room, found, cs =>
      match skipLines cs with
      | ']' :: rest => some (.array found.reverse, rest)
      | cs => do
          let (item, rest) ← readValue? steps room cs
          match skipLines rest with
          | ',' :: rest => readItems? steps room (item :: found) rest
          | ']' :: rest => some (.array (item :: found).reverse, rest)
          | _ => none

/-- The rest of an inline table that has a further key. -/
def readPairs? : Nat → Nat → Entries → List Char → Option (Toml × List Char)
  | 0, _, _, _ => none
  | steps + 1, room, found, cs => do
      let (key, rest) ← readKey? cs
      let (path, key) ← splitKey? key
      let rest ← readMark? '=' rest
      let (item, rest) ← readValue? steps room (skipInline rest)
      let found ← found.add path key item
      match skipInline rest with
      | ',' :: rest => readPairs? steps room found rest
      | '\x7d' :: rest => some (.table (entriesToValues found), rest)
      | _ => none

end

/-- A header between its marks, with the text after its line. -/
def readHeader? (close : List Char) (cs : List Char) :
    Option (List String × String × List Char) := do
  let (key, rest) ← readKey? cs
  let (path, key) ← splitKey? key
  let rest ← dropWord? close rest
  let rest ← endOfLine? rest
  some (path, key, rest)

/-- A key with its value, with the text after its line. -/
def readLine? (cs : List Char) : Option (List String × String × Toml × List Char) := do
  let (key, rest) ← readKey? cs
  let (path, key) ← splitKey? key
  let rest ← readMark? '=' rest
  let (v, rest) ← readValue? cs.length maxParts (skipInline rest)
  let rest ← endOfLine? rest
  some (path, key, v, rest)

/-- The entries of the lines of a text, added to those read before.  `header` is the
path of the header that was read last. -/
def readLines? (steps : Nat) (header : List String) (entries : Entries) (cs : List Char) :
    Option Entries :=
  match steps with
  | 0 => none
  | steps + 1 =>
      match skipInline cs with
      | [] => some entries
      | '[' :: '[' :: rest => do
          let (path, key, rest) ← readHeader? [']', ']'] rest
          readLines? steps (path ++ [key]) (← entries.openElement path key) rest
      | '[' :: rest => do
          let (path, key, rest) ← readHeader? [']'] rest
          readLines? steps (path ++ [key]) (← entries.openTable path key) rest
      | c :: rest =>
          if c = '#' ∨ c = '\n' ∨ c = '\r' then do
            readLines? steps header entries (← endOfLine? (c :: rest))
          else do
            let (path, key, v, rest) ← readLine? (c :: rest)
            readLines? steps header (← entries.addWithin header path key v) rest

/-- The mark of byte order that may open a text. -/
def byteOrderMark : Char := Char.ofNat 0xFEFF

/-- The table of a text. -/
def read? (cs : List Char) : Option Toml :=
  let cs := match cs with
    | c :: rest => if c = byteOrderMark then rest else cs
    | [] => cs
  (readLines? (cs.length + 1) [] [] cs).map fun entries => .table (entriesToValues entries)

end Toml

end Discussion
