/-!
# Numerals

Decimal numerals for natural numbers, integers and 64-bit words.  Writing gives
the shortest numeral; reading a word accepts an optional plus sign, leading
zeros, and nothing that does not fit the word.
-/

namespace Discussion

/-- The value of an ASCII decimal digit. -/
def digitValue? (c : Char) : Option Nat :=
  if '0' ≤ c ∧ c ≤ '9' then some (c.toNat - '0'.toNat) else none

/-- Whether the character is an ASCII decimal digit. -/
def isDigit (c : Char) : Bool :=
  (digitValue? c).isSome

/-- The value of an ASCII hexadecimal digit of either case. -/
def hexValue? (c : Char) : Option Nat :=
  if '0' ≤ c ∧ c ≤ '9' then some (c.toNat - '0'.toNat)
  else if 'a' ≤ c ∧ c ≤ 'f' then some (c.toNat - 'a'.toNat + 10)
  else if 'A' ≤ c ∧ c ≤ 'F' then some (c.toNat - 'A'.toNat + 10)
  else none

/-- The character of a decimal digit below ten. -/
def digitChar (d : Nat) : Char :=
  Char.ofNat ('0'.toNat + d)

/-- The decimal numeral of a number, without leading zeros. -/
def numeral (n : Nat) : List Char :=
  if n < 10 then [digitChar n] else numeral (n / 10) ++ [digitChar (n % 10)]

/-- The decimal numeral of a number as a string. -/
def decimal (n : Nat) : String :=
  String.ofList (numeral n)

/-- The decimal numeral of an integer, with a minus sign below zero. -/
def signedDecimal (i : Int) : String :=
  if i < 0 then "-" ++ decimal i.natAbs else decimal i.natAbs

/-- The decimal numeral of a number, padded with zeros on the left. -/
def paddedDecimal (width n : Nat) : String :=
  let digits := numeral n
  String.ofList (List.replicate (width - digits.length) '0' ++ digits)

/-- The value of a text of decimal digits, `none` if another character occurs. -/
def digitsValue? (cs : List Char) : Option Nat :=
  cs.foldlM (fun value c => (digitValue? c).map (10 * value + ·)) 0

/-- The number spelled by a nonempty text of decimal digits. -/
def readNat? (cs : List Char) : Option Nat :=
  if cs.isEmpty then none else digitsValue? cs

/-- The word spelled by a text: an optional plus sign, then at least one digit. -/
def readWord? (cs : List Char) : Option UInt64 :=
  let digits := match cs with
    | '+' :: rest => rest
    | _ => cs
  match readNat? digits with
  | some n => if n < UInt64.size then some (UInt64.ofNat n) else none
  | none => none

/-- The word spelled by a string. -/
def wordOfString? (s : String) : Option UInt64 :=
  readWord? s.toList

/-- An integer as an unsigned word, `none` outside its range. -/
def wordOfInt? (i : Int) : Option UInt64 :=
  if 0 ≤ i ∧ i < UInt64.size then some (UInt64.ofNat i.toNat) else none

/-- Whether an integer is in the range of signed words. -/
def fitsSignedWord (i : Int) : Bool :=
  -9223372036854775808 ≤ i && i < 9223372036854775808

/-- An integer as a signed word, `none` outside its range. -/
def signedWordOfInt? (i : Int) : Option Int64 :=
  if fitsSignedWord i then some (Int64.ofInt i) else none

/-- The decimal numeral of an unsigned word. -/
def wordText (w : UInt64) : String :=
  decimal w.toNat

/-- The decimal numeral of a signed word. -/
def signedWordText (w : Int64) : String :=
  signedDecimal w.toInt

end Discussion
