import Mathlib.Algebra.Ring.Nat
import Discussion.Text.Numeral

/-!
# Numerals read back

The digits of a numeral, how many there are, and that reading them gives the number
again.  A numeral is taken apart from its end, as it is written: its last digit is the
remainder by ten, the others are the numeral of the quotient.
-/

namespace Discussion

theorem numeral_of_lt {n : Nat} (h : n < 10) : numeral n = [digitChar n] := by
  rw [numeral, if_pos h]

theorem numeral_of_le {n : Nat} (h : 10 ≤ n) :
    numeral n = numeral (n / 10) ++ [digitChar (n % 10)] := by
  rw [numeral, if_neg (by omega)]

theorem digitValue?_digitChar {d : Nat} (h : d < 10) : digitValue? (digitChar d) = some d := by
  have hall : ∀ d < 10, digitValue? (digitChar d) = some d := by decide
  exact hall d h

theorem isDigit_digitChar {d : Nat} (h : d < 10) : isDigit (digitChar d) = true := by
  rw [isDigit, digitValue?_digitChar h]
  rfl

theorem lt_ten_of_digitValue? {c : Char} {d : Nat} (h : digitValue? c = some d) : d < 10 := by
  by_cases hdigit : '0' ≤ c ∧ c ≤ '9'
  · rw [digitValue?, if_pos hdigit] at h
    obtain rfl := Option.some.inj h
    have hle : c.toNat ≤ 57 := hdigit.2
    change c.toNat - 48 < 10
    omega
  · rw [digitValue?, if_neg hdigit] at h
    cases h

theorem isDigit_of_mem_numeral {n : Nat} {c : Char} (h : c ∈ numeral n) : isDigit c = true := by
  induction n using Nat.strongRecOn with
  | ind n ih =>
      by_cases hsmall : n < 10
      · rw [numeral_of_lt hsmall, List.mem_singleton] at h
        rw [h]
        exact isDigit_digitChar hsmall
      · rw [numeral_of_le (by omega), List.mem_append, List.mem_singleton] at h
        rcases h with hinit | rfl
        · exact ih (n / 10) (by omega) hinit
        · exact isDigit_digitChar (by omega)

theorem numeral_ne_nil (n : Nat) : numeral n ≠ [] := by
  rw [numeral]
  split <;> simp

/-- A number below a power of ten has no more digits than that. -/
theorem length_numeral_le {width n : Nat} (hwidth : 1 ≤ width) (h : n < 10 ^ width) :
    (numeral n).length ≤ width := by
  induction width generalizing n with
  | zero => omega
  | succ width ih =>
      by_cases hsmall : n < 10
      · rw [numeral_of_lt hsmall]
        simp
      · have hpos : 1 ≤ width := by
          rcases Nat.eq_zero_or_pos width with rfl | hpos
          · exact absurd h hsmall
          · exact hpos
        have hinit : (numeral (n / 10)).length ≤ width := by
          refine ih hpos ?_
          rw [Nat.pow_succ] at h
          omega
        rw [numeral_of_le (by omega), List.length_append, List.length_singleton]
        omega

/-- Reading the digits of a numeral after others moves those to the left. -/
theorem foldlM_digits_numeral (value n : Nat) :
    (numeral n).foldlM (fun value c => (digitValue? c).map (10 * value + ·)) value =
      some (value * 10 ^ (numeral n).length + n) := by
  induction n using Nat.strongRecOn with
  | ind n ih =>
      by_cases hsmall : n < 10
      · simp [numeral_of_lt hsmall, digitValue?_digitChar hsmall, Nat.mul_comm]
      · have hinit := ih (n / 10) (by omega)
        have hlast := digitValue?_digitChar (d := n % 10) (by omega)
        rw [numeral_of_le (by omega), List.foldlM_append, hinit]
        simp only [Option.bind_eq_bind, Option.bind_some, List.foldlM_cons, List.foldlM_nil, hlast,
          Option.map_some, List.length_append, List.length_singleton, Nat.pow_succ]
        have hvalue : 10 * (value * 10 ^ (numeral (n / 10)).length + n / 10) + n % 10 =
            value * (10 ^ (numeral (n / 10)).length * 10) + n := by
          rw [Nat.mul_add, Nat.add_assoc, Nat.div_add_mod, ← Nat.mul_assoc, ← Nat.mul_assoc,
            Nat.mul_comm 10 value, Nat.mul_right_comm]
        rw [hvalue]
        rfl

theorem readNat?_numeral (n : Nat) : readNat? (numeral n) = some n := by
  have hne : (numeral n).isEmpty = false := by
    simpa using numeral_ne_nil n
  rw [readNat?, hne, if_neg (by simp), digitsValue?, foldlM_digits_numeral, Nat.zero_mul,
    Nat.zero_add]

theorem foldlM_digits_lt {digits : List Char} {bound value n : Nat} (hvalue : value < bound)
    (h : digits.foldlM (fun value c => (digitValue? c).map (10 * value + ·)) value = some n) :
    n < bound * 10 ^ digits.length := by
  induction digits generalizing value bound with
  | nil =>
      obtain rfl := Option.some.inj h
      simpa using hvalue
  | cons c digits ih =>
      rw [List.foldlM_cons] at h
      cases hdigit : digitValue? c with
      | none => simp [hdigit] at h
      | some d =>
          rw [hdigit] at h
          have hd := lt_ten_of_digitValue? hdigit
          have hmore : 10 * value + d < bound * 10 := by omega
          have hnext := ih hmore h
          rw [List.length_cons, Nat.pow_succ, Nat.mul_comm _ 10, ← Nat.mul_assoc]
          exact hnext

/-- So many digits spell no more than that power of ten. -/
theorem readNat?_lt {digits : List Char} {n : Nat} (h : readNat? digits = some n) :
    n < 10 ^ digits.length := by
  rw [readNat?] at h
  split at h
  · cases h
  · simpa using foldlM_digits_lt Nat.one_pos h

/-! ## Padded numerals -/

theorem toList_paddedDecimal (width n : Nat) :
    (paddedDecimal width n).toList =
      List.replicate (width - (numeral n).length) '0' ++ numeral n := by
  rw [paddedDecimal, String.toList_ofList]

theorem isDigit_of_mem_paddedDecimal {width n : Nat} {c : Char}
    (h : c ∈ (paddedDecimal width n).toList) : isDigit c = true := by
  rw [toList_paddedDecimal, List.mem_append] at h
  rcases h with hzero | hdigit
  · rw [(List.mem_replicate.mp hzero).2]
    rfl
  · exact isDigit_of_mem_numeral hdigit

theorem paddedDecimal_ne_nil (width n : Nat) : (paddedDecimal width n).toList ≠ [] := by
  simp [toList_paddedDecimal, numeral_ne_nil]

theorem length_paddedDecimal {width n : Nat} (hwidth : 1 ≤ width) (h : n < 10 ^ width) :
    (paddedDecimal width n).toList.length = width := by
  have hle := length_numeral_le hwidth h
  rw [toList_paddedDecimal, List.length_append, List.length_replicate]
  omega

theorem foldlM_digits_zeros (count : Nat) :
    (List.replicate count '0').foldlM (fun value c => (digitValue? c).map (10 * value + ·)) 0 =
      some 0 := by
  induction count with
  | zero => rfl
  | succ count ih =>
      rw [List.replicate_succ, List.foldlM_cons]
      exact ih

/-- Zeros on the left do not change what is read. -/
theorem readNat?_paddedDecimal (width n : Nat) :
    readNat? (paddedDecimal width n).toList = some n := by
  have hne : (paddedDecimal width n).toList.isEmpty = false := by
    simpa using paddedDecimal_ne_nil width n
  rw [readNat?, hne, if_neg (by simp), digitsValue?, toList_paddedDecimal, List.foldlM_append,
    foldlM_digits_zeros]
  change (numeral n).foldlM _ 0 = _
  rw [foldlM_digits_numeral, Nat.zero_mul, Nat.zero_add]

end Discussion
