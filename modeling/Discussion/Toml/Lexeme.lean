import Discussion.Text.Double

/-!
# Lexemes of TOML

Strings, keys, numbers and dates of the TOML format.  A reader takes the text
and gives what it read together with the text after it.
-/

namespace Discussion

namespace Toml

/-! ## Blanks, comments and line ends -/

/-- The blanks within a line. -/
def isInlineBlank (c : Char) : Bool :=
  c == ' ' || c == '\t'

/-- The characters that may stand in comments and strings. -/
def isPrintable (c : Char) : Bool :=
  c == '\t' || (0x20 ≤ c.toNat && c.toNat != 0x7F)

/-- The text after its leading blanks. -/
def skipInline (cs : List Char) : List Char :=
  cs.dropWhile isInlineBlank

/-- The text after a line end. -/
def newLine? : List Char → Option (List Char)
  | '\n' :: rest => some rest
  | '\r' :: '\n' :: rest => some rest
  | _ => none

/-- The text after a comment, if there is one. -/
def skipComment : List Char → List Char
  | '#' :: rest => rest.dropWhile isPrintable
  | cs => cs

/-- The text after the end of a line, which may hold a comment before it. -/
def endOfLine? (cs : List Char) : Option (List Char) :=
  match skipComment (skipInline cs) with
  | [] => some []
  | cs => newLine? cs

/-- The text after blanks, comments and line ends, starting inside a comment or not. -/
def skipLinesFrom (inComment : Bool) : List Char → List Char
  | [] => []
  | '\n' :: rest => skipLinesFrom false rest
  | '\r' :: '\n' :: rest => skipLinesFrom false rest
  | c :: rest =>
      if inComment && isPrintable c then skipLinesFrom true rest
      else if !inComment && isInlineBlank c then skipLinesFrom false rest
      else if !inComment && c == '#' then skipLinesFrom true rest
      else c :: rest

/-- The text after blanks, comments and line ends. -/
def skipLines (cs : List Char) : List Char :=
  skipLinesFrom false cs

/-- The text after blanks and line ends. -/
def skipBreaks : List Char → List Char
  | [] => []
  | '\n' :: rest => skipBreaks rest
  | '\r' :: '\n' :: rest => skipBreaks rest
  | c :: rest => if isInlineBlank c then skipBreaks rest else c :: rest

/-! ## Strings -/

/-- The number of a text of hexadecimal digits. -/
def hexNumber? (cs : List Char) : Option Nat :=
  cs.foldlM (fun value c => (hexValue? c).map (16 * value + ·)) 0

/-- The character with the number that some hexadecimal digits spell. -/
def hexChar? (cs : List Char) : Option Char := do
  let n ← hexNumber? cs
  if n.isValidChar then some (Char.ofNat n) else none

/-- The character of a short escape. -/
def escapedChar? (c : Char) : Option Char :=
  if c = '"' ∨ c = '\\' then some c
  else if c = 'b' then some '\x08'
  else if c = 'f' then some '\x0c'
  else if c = 'n' then some '\n'
  else if c = 'r' then some '\r'
  else if c = 't' then some '\t'
  else none

/-- The character of an escape after its backslash, with the text after it. -/
def readEscape? : List Char → Option (Char × List Char)
  | 'u' :: rest =>
      let digits := rest.take 4
      if digits.length = 4 then (hexChar? digits).map fun c => (c, rest.drop 4) else none
  | 'U' :: rest =>
      let digits := rest.take 8
      if digits.length = 8 then (hexChar? digits).map fun c => (c, rest.drop 8) else none
  | c :: rest => (escapedChar? c).map fun c => (c, rest)
  | [] => none

/-- The rest of a string between single quotation marks. -/
def readLiteral? (found : List Char) : List Char → Option (String × List Char)
  | [] => none
  | c :: rest =>
      if c = '\'' then some (String.ofList found.reverse, rest)
      else if isPrintable c then readLiteral? (c :: found) rest
      else none

/-- The rest of a string between double quotation marks.  The first argument bounds
the steps; the length of the text is enough. -/
def readBasic? (steps : Nat) (found : List Char) (cs : List Char) : Option (String × List Char) :=
  match steps, cs with
  | steps + 1, c :: rest =>
      if c = '"' then some (String.ofList found.reverse, rest)
      else if c = '\\' then do
        let (c, rest) ← readEscape? rest
        readBasic? steps (c :: found) rest
      else if isPrintable c then readBasic? steps (c :: found) rest
      else none
  | _, _ => none

/-- The marks at the start of a text, and how many there are. -/
def countMarks (mark : Char) (cs : List Char) : Nat :=
  (cs.takeWhile (· == mark)).length

/-- The end of a string over several lines at some marks: three marks close it, and
up to two before them belong to it. -/
def closeLong? (mark : Char) (found cs : List Char) : Option (String × List Char) :=
  let n := countMarks mark cs
  if n < 3 then none
  else
    let inside := min (n - 3) 2
    some (String.ofList (List.replicate inside mark ++ found).reverse, cs.drop (inside + 3))

/-- The rest of a string over several lines.  A backslash before a line end skips all
blanks and line ends after it; `escapes` says whether backslashes matter. -/
def readLong? (mark : Char) (escapes : Bool) (steps : Nat) (found cs : List Char) :
    Option (String × List Char) :=
  match steps, cs with
  | steps + 1, c :: rest =>
      match newLine? (c :: rest) with
      | some rest => readLong? mark escapes steps ('\n' :: found) rest
      | none =>
          if c = mark then
            match closeLong? mark found (c :: rest) with
            | some result => some result
            | none => readLong? mark escapes steps (c :: found) rest
          else if escapes && c == '\\' then
            match newLine? (skipInline rest) with
            | some rest => readLong? mark escapes steps found (skipBreaks rest)
            | none => do
                let (c, rest) ← readEscape? rest
                readLong? mark escapes steps (c :: found) rest
          else if isPrintable c then readLong? mark escapes steps (c :: found) rest
          else none
  | _, _ => none

/-- A string of any of the four kinds. -/
def readString? (cs : List Char) : Option (String × List Char) :=
  match cs with
  | '"' :: '"' :: '"' :: rest =>
      readLong? '"' true cs.length [] ((newLine? rest).getD rest)
  | '\'' :: '\'' :: '\'' :: rest =>
      readLong? '\'' false cs.length [] ((newLine? rest).getD rest)
  | '"' :: rest => readBasic? cs.length [] rest
  | '\'' :: rest => readLiteral? [] rest
  | _ => none

/-! ## Keys -/

/-- The characters of a key without quotation marks. -/
def isBareKey (c : Char) : Bool :=
  ('a' ≤ c && c ≤ 'z') || ('A' ≤ c && c ≤ 'Z') || isDigit c || c == '_' || c == '-'

/-- One part of a key. -/
def readSimpleKey? (cs : List Char) : Option (String × List Char) :=
  match cs with
  | '"' :: rest => readBasic? cs.length [] rest
  | '\'' :: rest => readLiteral? [] rest
  | _ =>
      let name := cs.takeWhile isBareKey
      if name.isEmpty then none else some (String.ofList name, cs.dropWhile isBareKey)

/-- The parts of a key between full stops, with blanks around them. -/
def readKeyParts? (steps : Nat) (found : List String) (cs : List Char) :
    Option (List String × List Char) :=
  match steps with
  | 0 => none
  | steps + 1 => do
      let (name, rest) ← readSimpleKey? (skipInline cs)
      match skipInline rest with
      | '.' :: rest => readKeyParts? steps (name :: found) rest
      | rest => some ((name :: found).reverse, rest)

/-- The number of parts that a key may have, and one more than the number of nested
arrays and tables that a value may have. -/
def maxParts : Nat := 79

/-- A key. -/
def readKey? (cs : List Char) : Option (List String × List Char) :=
  readKeyParts? maxParts [] cs

/-! ## Numbers -/

/-- The digits at the start of a text, at least one, with single underscores between
them.  `found` holds those read before in reverse. -/
def readDigits? (isDigit : Char → Bool) (found : List Char) : List Char →
    Option (List Char × List Char)
  | '_' :: c :: rest =>
      if found.isEmpty || !isDigit c then none else readDigits? isDigit (c :: found) rest
  | c :: rest =>
      if isDigit c then readDigits? isDigit (c :: found) rest
      else if c = '_' ∨ found.isEmpty then none
      else some (found.reverse, c :: rest)
  | [] => if found.isEmpty then none else some (found.reverse, [])

/-- A sign, if there is one: whether it is a minus sign, and the text after it. -/
def readSign : List Char → Bool × List Char
  | '+' :: rest => (false, rest)
  | '-' :: rest => (true, rest)
  | cs => (false, cs)

/-- The digits of a decimal integer, which has no leading zeros. -/
def readWhole? : List Char → Option (List Char × List Char)
  | '0' :: rest => some (['0'], rest)
  | cs => readDigits? Discussion.isDigit [] cs

/-- The value of digits to a base. -/
def digitsTo (base : Nat) (digits : List Char) : Nat :=
  digits.foldl (fun value c => base * value + (hexValue? c).getD 0) 0

/-- Whether the character is a digit to a base of at most sixteen. -/
def isDigitTo (base : Nat) (c : Char) : Bool :=
  (hexValue? c).any (· < base)

/-- A signed word of 64 bits, if the integer is one. -/
def wordOrNone (i : Int) (rest : List Char) : Option (Int × List Char) :=
  if fitsSignedWord i then some (i, rest) else none

/-- An integer to the base that its first two characters tell. -/
def readInteger? (cs : List Char) : Option (Int × List Char) :=
  let based (base : Nat) (rest : List Char) : Option (Int × List Char) := do
    let (digits, rest) ← readDigits? (isDigitTo base) [] rest
    wordOrNone (digitsTo base digits) rest
  match cs with
  | '0' :: 'x' :: rest => based 16 rest
  | '0' :: 'o' :: rest => based 8 rest
  | '0' :: 'b' :: rest => based 2 rest
  | _ => do
      let (negative, rest) := readSign cs
      let (digits, rest) ← readWhole? rest
      let n : Int := digitsTo 10 digits
      wordOrNone (if negative then -n else n) rest

/-- The exponent of a floating point number, with the text after it. -/
def readExponent? : List Char → Option (Int × List Char)
  | c :: rest =>
      if c = 'e' ∨ c = 'E' then do
        let (negative, rest) := readSign rest
        let (digits, rest) ← readDigits? Discussion.isDigit [] rest
        let n : Int := digitsTo 10 digits
        some (if negative then -n else n, rest)
      else none
  | [] => none

/-- The text after a word. -/
def dropWord? : List Char → List Char → Option (List Char)
  | [], cs => some cs
  | _ :: _, [] => none
  | c :: word, d :: cs => if c = d then dropWord? word cs else none

/-- The text after an infinity or a number that is none. -/
def readSpecialFloat? (cs : List Char) : Option (List Char) :=
  let (_, rest) := readSign cs
  (dropWord? ['i', 'n', 'f'] rest).or (dropWord? ['n', 'a', 'n'] rest)

/-- The text after a floating point number with a fraction or an exponent.  A positive
one must not be too large. -/
def readPlainFloat? (cs : List Char) : Option (List Char) := do
  let (negative, rest) := readSign cs
  let (whole, rest) ← readWhole? rest
  let (fraction, afterFraction) ←
    match rest with
    | '.' :: rest => readDigits? Discussion.isDigit [] rest
    | _ => some ([], rest)
  let (exponent, rest) ←
    match readExponent? afterFraction with
    | some result => some result
    | none => if fraction.isEmpty then none else some (0, afterFraction)
  let mantissa := digitsTo 10 (whole ++ fraction)
  if negative || isFinite mantissa (exponent - fraction.length) then some rest else none

/-- The text after a floating point number. -/
def readFloat? (cs : List Char) : Option (List Char) :=
  (readPlainFloat? cs).or (readSpecialFloat? cs)

/-! ## Dates -/

/-- A number of exactly so many digits, within bounds, with the text after it. -/
def readFixed? (digits low high : Nat) (cs : List Char) : Option (Nat × List Char) := do
  let field := cs.take digits
  let n ← digitsValue? field
  if field.length = digits ∧ low ≤ n ∧ n ≤ high then some (n, cs.drop digits) else none

/-- The text after an expected character. -/
def readMark? (mark : Char) : List Char → Option (List Char)
  | c :: rest => if c = mark then some rest else none
  | [] => none

/-- The number of days of a month. -/
def monthLength (year month : Nat) : Nat :=
  if month = 2 then
    if year % 4 = 0 ∧ (year % 100 ≠ 0 ∨ year % 400 = 0) then 29 else 28
  else if month = 4 ∨ month = 6 ∨ month = 9 ∨ month = 11 then 30
  else 31

/-- The text after a date. -/
def readFullDate? (cs : List Char) : Option (List Char) := do
  let (year, rest) ← readFixed? 4 0 9999 cs
  let rest ← readMark? '-' rest
  let (month, rest) ← readFixed? 2 1 12 rest
  let rest ← readMark? '-' rest
  let (_, rest) ← readFixed? 2 1 (monthLength year month) rest
  some rest

/-- The text after the fraction of a second, if there is one. -/
def skipFraction (cs : List Char) : List Char :=
  match cs with
  | '.' :: c :: rest => if Discussion.isDigit c then rest.dropWhile Discussion.isDigit else cs
  | _ => cs

/-- The text after a time of day. -/
def readTimeOfDay? (cs : List Char) : Option (List Char) := do
  let (_, rest) ← readFixed? 2 0 23 cs
  let rest ← readMark? ':' rest
  let (_, rest) ← readFixed? 2 0 59 rest
  let rest ← readMark? ':' rest
  let (_, rest) ← readFixed? 2 0 60 rest
  some (skipFraction rest)

/-- The text after an offset from universal time. -/
def readZone? (cs : List Char) : Option (List Char) :=
  match cs with
  | c :: rest =>
      if c = 'Z' ∨ c = 'z' then some rest
      else if c = '+' ∨ c = '-' then do
        let (_, rest) ← readFixed? 2 0 23 rest
        let rest ← readMark? ':' rest
        let (_, rest) ← readFixed? 2 0 59 rest
        some rest
      else none
  | [] => none

/-- The text after a time of day that follows a date, and the offset that may follow it. -/
def skipTime (cs : List Char) : List Char :=
  match cs with
  | c :: rest =>
      if c = 'T' ∨ c = 't' ∨ c = ' ' then
        match readTimeOfDay? rest with
        | some rest => (readZone? rest).getD rest
        | none => cs
      else cs
  | [] => cs

/-- The text after a date, a time of day, or both. -/
def readDate? (cs : List Char) : Option (List Char) :=
  ((readFullDate? cs).map skipTime).or (readTimeOfDay? cs)

end Toml

end Discussion
