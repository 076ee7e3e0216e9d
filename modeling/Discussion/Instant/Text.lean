import Discussion.Instant.Basic
import Discussion.Text.Blank
import Discussion.Text.Numeral

/-!
# Instants as text

Instants are written in the profile of ISO 8601 that internet standards use:
`2024-01-31T08:05:00.125Z`.  The fraction has none, three, six or nine digits,
whichever is the least that loses nothing, and years of more than four digits
carry a sign.

The reader is more lenient.  Blanks may stand before each number and around the
marks of the date and the time, a field may have fewer digits than the written
form, a `t` or a space may stand for the `T`, and the zone is `Z`, `UTC` or a
signed offset of less than a day whose colon may be missing.
-/

namespace Discussion
namespace Instant

/-! ## Writing -/

/-- A year as four digits, with a sign where four digits do not hold it. -/
def yearText (year : Int) : String :=
  if 0 ≤ year ∧ year ≤ 9999 then paddedDecimal 4 year.toNat
  else (if year < 0 then "-" else "+") ++ paddedDecimal 4 year.natAbs

/-- A fraction of a second with the least multiple of three digits. -/
def fractionText (nano : Nat) : String :=
  if nano = 0 then ""
  else if nano % 1000000 = 0 then "." ++ paddedDecimal 3 (nano / 1000000)
  else if nano % 1000 = 0 then "." ++ paddedDecimal 6 (nano / 1000)
  else "." ++ paddedDecimal 9 nano

/-- The written form of an instant. -/
def text (t : Instant) : String :=
  let date := Date.ofDayNumber t.day
  let clock := (t.second % secondsPerDay).toNat
  let leap := nanosPerSecond ≤ t.nano
  let second := clock % 60 + (if leap then 1 else 0)
  let nano := if leap then t.nano - nanosPerSecond else t.nano
  yearText date.year ++ "-" ++ paddedDecimal 2 date.month ++ "-" ++
    paddedDecimal 2 date.day ++ "T" ++ paddedDecimal 2 (clock / 3600) ++ ":" ++
    paddedDecimal 2 (clock / 60 % 60) ++ ":" ++ paddedDecimal 2 second ++
    fractionText nano ++ "Z"

/-! ## Reading -/

/-- The digits at the start of a text, at most as many as the width allows, and
what follows them. -/
def leadingDigits : (width : Nat) → List Char → List Char × List Char
  | width + 1, c :: rest =>
      if isDigit c then
        let (digits, after) := leadingDigits width rest
        (c :: digits, after)
      else ([], c :: rest)
  | _, cs => ([], cs)

/-- The number at the start of a text, of at least one digit and at most the
given number of digits. -/
def readDigits? (width : Nat) (cs : List Char) : Option (Nat × List Char) :=
  let (digits, rest) := leadingDigits width cs
  (readNat? digits).map (·, rest)

/-- A number of one or two digits that is no more than a limit. -/
def readField? (limit : Nat) (cs : List Char) : Option (Nat × List Char) :=
  match readDigits? 2 (skipBlanks cs) with
  | some (n, rest) => if n ≤ limit then some (n, rest) else none
  | none => none

/-- A year: at most four digits, or a sign and any number of digits. -/
def readYear? (cs : List Char) : Option (Int × List Char) :=
  match skipBlanks cs with
  | '-' :: rest => (readDigits? rest.length rest).map fun (n, rest) => (-(n : Int), rest)
  | '+' :: rest => (readDigits? rest.length rest).map fun (n, rest) => ((n : Int), rest)
  | cs => (readDigits? 4 cs).map fun (n, rest) => ((n : Int), rest)

/-- A mark that blanks may precede. -/
def readMark? (mark : Char) (cs : List Char) : Option (List Char) :=
  match skipBlanks cs with
  | c :: rest => if c = mark then some rest else none
  | [] => none

/-- An optional fraction of a second in nanoseconds; digits after the ninth are
dropped. -/
def readFraction? : List Char → Option (Nat × List Char)
  | '.' :: rest =>
      let (digits, rest) := leadingDigits 9 rest
      (readNat? digits).map fun n =>
        (n * Nat.pow 10 (9 - digits.length), rest.dropWhile isDigit)
  | cs => some (0, cs)

/-- Exactly two digits. -/
def readPair? : List Char → Option (Nat × List Char)
  | a :: b :: rest => do
      let tens ← digitValue? a
      let ones ← digitValue? b
      some (10 * tens + ones, rest)
  | _ => none

/-- The minus signs that may open an offset: the hyphen and the mathematical sign. -/
def isMinus (c : Char) : Bool :=
  c == '-' || c == '−'

/-- An offset of hours and minutes in seconds, after its sign. -/
def readOffset? (cs : List Char) : Option (Int × List Char) := do
  let (hours, rest) ← readPair? cs
  let (minutes, rest) ← readPair? (rest.dropWhile fun c => c == ':' || isBlank c)
  if minutes < 60 then some ((hours * 3600 + minutes * 60 : Nat), rest) else none

/-- A zone: `Z`, `UTC`, or a signed offset from universal time in seconds. -/
def readZone? (cs : List Char) : Option (Int × List Char) :=
  match cs with
  | 'Z' :: rest => some (0, rest)
  | 'z' :: rest => some (0, rest)
  | c :: rest =>
      if (cs.take 3).map Char.toLower = ['u', 't', 'c'] then some (0, cs.drop 3)
      else if c = '+' then readOffset? rest
      else if isMinus c then (readOffset? rest).map fun (seconds, rest) => (-seconds, rest)
      else none
  | [] => none

/-- A date and the text after it. -/
def readDate? (cs : List Char) : Option (Date × List Char) := do
  let (year, rest) ← readYear? cs
  let rest ← readMark? '-' rest
  let (month, rest) ← readField? 12 rest
  let rest ← readMark? '-' rest
  let (day, rest) ← readField? 31 rest
  let date : Date := { year := year, month := month, day := day }
  if date.IsValid then some (date, rest) else none

/-- A time of day in seconds, the nanoseconds, and the text after it.  The
sixtieth second is a leap second. -/
def readClock? (cs : List Char) : Option (Nat × Nat × List Char) := do
  let (hour, rest) ← readField? 23 cs
  let rest ← readMark? ':' rest
  let (minute, rest) ← readField? 59 rest
  let rest ← readMark? ':' rest
  let (second, rest) ← readField? 60 rest
  let (nano, rest) ← readFraction? rest
  let clock := hour * 3600 + minute * 60
  if second = 60 then some (clock + 59, nano + nanosPerSecond, rest)
  else some (clock + second, nano, rest)

/-- Whether instants are kept for the day of a day number. -/
def isKept (day : Int) : Bool :=
  Date.earliest.dayNumber ≤ day && day ≤ Date.latest.dayNumber

/-- The instant that a text spells. -/
def read? (cs : List Char) : Option Instant := do
  let (date, rest) ← readDate? cs
  let rest ← match rest with
    | c :: rest => if c = 'T' ∨ c = 't' ∨ c = ' ' then some rest else none
    | [] => none
  let (clock, nano, rest) ← readClock? rest
  let (offset, rest) ← readZone? (skipBlanks rest)
  let t := ofDay date.dayNumber (clock - offset) nano
  if (skipBlanks rest).isEmpty ∧ offset.natAbs < 86400 ∧
      isKept date.dayNumber ∧ isKept t.day then some t
  else none

/-- The instant that a string spells. -/
def ofString? (s : String) : Option Instant :=
  read? s.toList

end Instant
end Discussion
