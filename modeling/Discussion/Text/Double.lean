import Discussion.Text.Numeral

/-!
# Double precision

Which decimal numbers a double-precision number can hold.  The numbers that lie
below the first one that rounds to `2 ^ 1024` are finite.  A reader that takes a
number as a whole compares it with this limit (`isFinite`); one that multiplies
the digits by a power of ten rounds both of them first (`isFiniteProduct`).
-/

namespace Discussion

/-- The least number that rounds to `2 ^ 1024`: half a unit above the greatest
double-precision number. -/
def doubleLimit : Nat :=
  Nat.pow 2 1024 - Nat.pow 2 970

/-- Whether the number `mantissa * 10 ^ exponent` is finite. -/
def isFinite (mantissa : Nat) (exponent : Int) : Bool :=
  if mantissa = 0 then true
  else if exponent > 310 then false
  else if exponent ≥ 0 then mantissa * Nat.pow 10 exponent.toNat < doubleLimit
  else if exponent < -(mantissa.log2 : Int) then true
  else mantissa < doubleLimit * Nat.pow 10 exponent.natAbs

/-! ## Rounding -/

/-- The nearest multiple of a unit; a tie goes to the even multiple. -/
def roundedTo (unit n : Nat) : Nat :=
  let kept := n / unit
  let rest := n % unit
  if unit < 2 * rest ∨ (unit = 2 * rest ∧ kept % 2 = 1) then (kept + 1) * unit else kept * unit

/-- The distance between neighbouring double-precision numbers near a number. -/
def doubleUnit (n : Nat) : Nat :=
  Nat.pow 2 (n.log2 - 52)

/-- The nearest double-precision number. -/
def nearestDouble (n : Nat) : Nat :=
  roundedTo (doubleUnit n) n

/-- No multiple of the unit is nearer than the rounded number. -/
theorem roundedTo_nearest {unit : Nat} (hunit : 0 < unit) (n k : Nat) :
    ((roundedTo unit n : Int) - n).natAbs ≤ (((k * unit : Nat) : Int) - n).natAbs := by
  have hdiv := Nat.div_add_mod n unit
  rw [Nat.mul_comm] at hdiv
  have hmod := Nat.mod_lt n hunit
  have hnext : (n / unit + 1) * unit = n / unit * unit + unit := Nat.succ_mul _ _
  have hside : k * unit ≤ n / unit * unit ∨ n / unit * unit + unit ≤ k * unit := by
    rcases Nat.lt_or_ge (n / unit) k with hlt | hge
    · exact Or.inr (hnext ▸ Nat.mul_le_mul_right unit hlt)
    · exact Or.inl (Nat.mul_le_mul_right unit hge)
  unfold roundedTo
  dsimp only
  split <;> omega

/-- Halfway between two multiples, the rounded number is the even one. -/
theorem roundedTo_even_of_tie {unit n : Nat} (hunit : 0 < unit) (htie : unit = 2 * (n % unit)) :
    roundedTo unit n / unit % 2 = 0 := by
  unfold roundedTo
  dsimp only
  split
  · rw [Nat.mul_div_cancel _ hunit]
    omega
  · rw [Nat.mul_div_cancel _ hunit]
    omega

/-- Numbers of at most 53 binary digits are held exactly. -/
theorem nearestDouble_eq_self {n : Nat} (h : n < 9007199254740992) : nearestDouble n = n := by
  have hlog : n.log2 - 52 = 0 := by
    by_cases hzero : n = 0
    · subst hzero
      decide
    · have hlt : n.log2 < 53 := (Nat.log2_lt hzero).mpr h
      omega
  have hunit : doubleUnit n = 1 := by
    rw [doubleUnit, hlog]
  rw [nearestDouble, hunit, roundedTo]
  simp [Nat.mod_one]

/-- Whether the product of `lead` and `10 ^ exponent` is finite, when both are rounded before
they are multiplied.  A power of ten that is itself not finite is refused. -/
def isFiniteProduct (lead : Nat) (exponent : Int) : Bool :=
  if lead = 0 ∨ exponent < 0 then true
  else if exponent > 308 then false
  else nearestDouble lead * nearestDouble (Nat.pow 10 exponent.toNat) < doubleLimit

end Discussion
