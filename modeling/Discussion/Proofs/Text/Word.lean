import Discussion.Proofs.Text.Numeral
import Mathlib.Data.Nat.Digits.Defs

/-!
# Spellings of words

A word of 64 bits is spelled by its decimal digits, with as many zeros before them as one likes
and a plus sign before these if one likes.  Exactly these texts are read as words.
-/

namespace Discussion

/-- The number that decimal digits stand for in the decimal system, the highest digit first. -/
def digitsNumber (digits : List Char) : Nat :=
  Nat.ofDigits 10 (digits.map fun c => c.toNat - '0'.toNat).reverse

/-- Whether a text spells a word: a plus sign at most, then at least one decimal digit, and no
number beyond the words. -/
def SpellsWord (cs : List Char) (w : UInt64) : Prop :=
  ∃ digits, (cs = digits ∨ cs = '+' :: digits) ∧ digits ≠ [] ∧
    (∀ c ∈ digits, '0' ≤ c ∧ c ≤ '9') ∧ digitsNumber digits = w.toNat

theorem digitsNumber_cons (c : Char) (digits : List Char) :
    digitsNumber (c :: digits) =
      (c.toNat - '0'.toNat) * 10 ^ digits.length + digitsNumber digits := by
  rw [digitsNumber, List.map_cons, List.reverse_cons, Nat.ofDigits_append, Nat.ofDigits_singleton,
    List.length_reverse, List.length_map, Nat.mul_comm, Nat.add_comm]
  rfl

theorem digitValue?_eq_some_iff {c : Char} {d : Nat} :
    digitValue? c = some d ↔ ('0' ≤ c ∧ c ≤ '9') ∧ c.toNat - '0'.toNat = d := by
  rw [digitValue?]
  split
  · next hdigit => simp [hdigit]
  · next hdigit => simp [hdigit]

/-- Digits that are read after others move these to the left. -/
theorem foldlM_digits_eq_some_iff {digits : List Char} {value n : Nat} :
    digits.foldlM (fun value c => (digitValue? c).map (10 * value + ·)) value = some n ↔
      (∀ c ∈ digits, '0' ≤ c ∧ c ≤ '9') ∧
        value * 10 ^ digits.length + digitsNumber digits = n := by
  induction digits generalizing value with
  | nil => simp [digitsNumber]
  | cons c digits ih =>
      have hvalue : ∀ d, (10 * value + d) * 10 ^ digits.length + digitsNumber digits =
          value * 10 ^ (digits.length + 1) + (d * 10 ^ digits.length + digitsNumber digits) := by
        intro d
        rw [Nat.pow_succ, Nat.add_mul, Nat.mul_comm 10 value, Nat.mul_assoc, Nat.add_assoc,
          Nat.mul_comm 10]
      rw [List.foldlM_cons, List.forall_mem_cons, List.length_cons, digitsNumber_cons, ← hvalue]
      constructor
      · intro h
        obtain ⟨next, hnext, hrest⟩ := Option.bind_eq_some_iff.mp h
        obtain ⟨d, hd, rfl⟩ := Option.map_eq_some_iff.mp hnext
        obtain ⟨hdigit, rfl⟩ := digitValue?_eq_some_iff.mp hd
        obtain ⟨hdigits, hn⟩ := ih.mp hrest
        exact ⟨⟨hdigit, hdigits⟩, hn⟩
      · rintro ⟨⟨hdigit, hdigits⟩, hn⟩
        rw [digitValue?_eq_some_iff.mpr ⟨hdigit, rfl⟩]
        exact ih.mpr ⟨hdigits, hn⟩

theorem readNat?_eq_some_iff {digits : List Char} {n : Nat} :
    readNat? digits = some n ↔
      digits ≠ [] ∧ (∀ c ∈ digits, '0' ≤ c ∧ c ≤ '9') ∧ digitsNumber digits = n := by
  rw [readNat?, digitsValue?]
  split
  · next hempty => simp [List.isEmpty_iff.mp hempty]
  · next hempty =>
      have hne : digits ≠ [] := fun hnil => hempty (List.isEmpty_iff.mpr hnil)
      rw [foldlM_digits_eq_some_iff, Nat.zero_mul, Nat.zero_add, and_iff_right hne]

/-- The word in a number that was read, if it is not too large. -/
theorem wordOfNat?_eq_some_iff {number : Option Nat} {w : UInt64} :
    (match number with
      | some n => if n < UInt64.size then some (UInt64.ofNat n) else none
      | none => none) = some w ↔ number = some w.toNat := by
  cases number with
  | none => simp
  | some n =>
      dsimp only
      constructor
      · intro h
        split at h
        · next hsize =>
            obtain rfl := Option.some.inj h
            rw [UInt64.toNat_ofNat_of_lt' hsize]
        · cases h
      · intro h
        obtain rfl := Option.some.inj h
        rw [if_pos w.toNat_lt, UInt64.ofNat_toNat]

theorem readWord?_plus {rest : List Char} {w : UInt64} :
    readWord? ('+' :: rest) = some w ↔ readNat? rest = some w.toNat :=
  wordOfNat?_eq_some_iff

theorem readWord?_of_ne_plus {cs : List Char} (h : ∀ rest, cs ≠ '+' :: rest) {w : UInt64} :
    readWord? cs = some w ↔ readNat? cs = some w.toNat := by
  rw [readWord?]
  · exact wordOfNat?_eq_some_iff
  · exact h

/-- The sign itself is no digit. -/
theorem readNat?_plus_ne (rest : List Char) (n : Nat) : readNat? ('+' :: rest) ≠ some n := by
  intro h
  have hdigit := (readNat?_eq_some_iff.mp h).2.1 '+' List.mem_cons_self
  exact absurd hdigit (by decide)

/-- A text is read as a word exactly if it spells it. -/
theorem readWord?_eq_some_iff {cs : List Char} {w : UInt64} :
    readWord? cs = some w ↔ SpellsWord cs w := by
  have hspells : SpellsWord cs w ↔ ∃ digits, (cs = digits ∨ cs = '+' :: digits) ∧
      readNat? digits = some w.toNat := by
    refine exists_congr fun digits => and_congr_right fun _ => ?_
    exact readNat?_eq_some_iff.symm
  rw [hspells]
  by_cases hplus : ∃ rest, cs = '+' :: rest
  · obtain ⟨rest, rfl⟩ := hplus
    rw [readWord?_plus]
    constructor
    · exact fun h => ⟨rest, Or.inr rfl, h⟩
    · rintro ⟨digits, rfl | hdigits, h⟩
      · exact absurd h (readNat?_plus_ne rest w.toNat)
      · obtain rfl := (List.cons.inj hdigits).2
        exact h
  · have hplain : ∀ rest, cs ≠ '+' :: rest := fun rest h => hplus ⟨rest, h⟩
    rw [readWord?_of_ne_plus hplain]
    constructor
    · exact fun h => ⟨cs, Or.inl rfl, h⟩
    · rintro ⟨digits, rfl | hdigits, h⟩
      · exact h
      · exact absurd hdigits (hplain digits)

theorem digit_of_mem_numeral {n : Nat} {c : Char} (h : c ∈ numeral n) : '0' ≤ c ∧ c ≤ '9' :=
  (readNat?_eq_some_iff.mp (readNat?_numeral n)).2.1 c h

/-- A word is read back from its numeral. -/
theorem spellsWord_numeral (w : UInt64) : SpellsWord (numeral w.toNat) w :=
  ⟨numeral w.toNat, Or.inl rfl, readNat?_eq_some_iff.mp (readNat?_numeral w.toNat)⟩

end Discussion
