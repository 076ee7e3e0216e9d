/-!
# The calendar

Dates of the proleptic Gregorian calendar and their day numbers, counted from
the first of January of the year zero.  A year is found from a day number by an
estimate from the mean length of a year, which is off by at most one.
-/

namespace Discussion

/-- A date of the proleptic Gregorian calendar; months and days count from one. -/
structure Date where
  year : Int
  month : Nat
  day : Nat
deriving DecidableEq, Repr

/-- Every fourth year is a leap year, except the centuries not divisible by 400. -/
def isLeapYear (year : Int) : Bool :=
  year % 4 == 0 && (year % 100 != 0 || year % 400 == 0)

/-- The lengths of the twelve months. -/
def monthLengths (leap : Bool) : List Nat :=
  [31, if leap then 29 else 28, 31, 30, 31, 30, 31, 31, 30, 31, 30, 31]

/-- The number of days from the start of the year zero to the start of a year. -/
def daysBeforeYear (year : Int) : Int :=
  365 * year + (year + 3) / 4 - (year + 99) / 100 + (year + 399) / 400

namespace Date

/-- Whether the month and the day exist in the date's year. -/
def IsValid (date : Date) : Prop :=
  1 ≤ date.month ∧ date.month ≤ 12 ∧ 1 ≤ date.day ∧
    date.day ≤ (monthLengths (isLeapYear date.year)).getD (date.month - 1) 0

instance (date : Date) : Decidable date.IsValid :=
  inferInstanceAs (Decidable (_ ∧ _ ∧ _ ∧ _))

/-- The number of days from the start of the year zero to a date. -/
def dayNumber (date : Date) : Int :=
  daysBeforeYear date.year +
    (((monthLengths (isLeapYear date.year)).take (date.month - 1)).foldl (· + ·) (date.day - 1) : Nat)

/-- The year that holds a day number. -/
def yearOfDay (day : Int) : Int :=
  let estimate := 400 * day / 146097
  if day < daysBeforeYear estimate then estimate - 1
  else if daysBeforeYear (estimate + 1) ≤ day then estimate + 1
  else estimate

/-- The month and the day at an offset into months of the given lengths. -/
def monthAndDay : (lengths : List Nat) → (month offset : Nat) → Nat × Nat
  | [], month, offset => (month, offset + 1)
  | length :: rest, month, offset =>
      if offset < length then (month, offset + 1)
      else monthAndDay rest (month + 1) (offset - length)

/-- The date of a day number. -/
def ofDayNumber (day : Int) : Date :=
  let year := yearOfDay day
  let (month, dayOfMonth) :=
    monthAndDay (monthLengths (isLeapYear year)) 1 (day - daysBeforeYear year).toNat
  { year := year, month := month, day := dayOfMonth }

/-- The first date that instants are kept for. -/
def earliest : Date := { year := -262143, month := 1, day := 1 }

/-- The last date that instants are kept for. -/
def latest : Date := { year := 262142, month := 12, day := 31 }

end Date

end Discussion
