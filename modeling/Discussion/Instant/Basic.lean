import Discussion.Instant.Calendar

/-!
# Instants

Points of universal time to the nanosecond.  A leap second is kept as the
second before it with a thousand million further nanoseconds, so that it sorts
after that second and before the next minute.
-/

namespace Discussion

/-- Seconds since 1970-01-01T00:00:00Z and the nanoseconds within the second.
Nanoseconds from a thousand million on stand for a leap second. -/
structure Instant where
  second : Int
  nano : Nat
deriving DecidableEq, Repr

namespace Instant

/-- The start of 1970. -/
def epoch : Instant := { second := 0, nano := 0 }

instance : Inhabited Instant := ⟨epoch⟩

/-- Instants are ordered by their second, then within the second. -/
def compare (a b : Instant) : Ordering :=
  (Ord.compare a.second b.second).then (Ord.compare a.nano b.nano)

/-- The number of nanoseconds in a second. -/
def nanosPerSecond : Nat := 1000000000

/-- The number of seconds in a day that has no leap second. -/
def secondsPerDay : Int := 86400

/-- The day number of 1970-01-01. -/
def epochDay : Int := 719528

/-- The day number of the day that holds the instant. -/
def day (t : Instant) : Int :=
  t.second / secondsPerDay + epochDay

/-- The instant at a second of a day; the second may lie outside the day. -/
def ofDay (day second : Int) (nano : Nat) : Instant :=
  { second := (day - epochDay) * secondsPerDay + second, nano := nano }

end Instant

end Discussion
