/-!
# Ranges of characters

A class of characters is given by the runs of code points that it consists of.
The tables of the Unicode properties are such lists.
-/

namespace Discussion

/-- Whether a number lies in one of some runs, given by their first and last numbers. -/
def liesInRanges (ranges : List (Nat × Nat)) (n : Nat) : Bool :=
  ranges.any fun (first, last) => first ≤ n && n ≤ last

/-- A number lies in the runs if and only if one of them reaches from below it to above it. -/
theorem liesInRanges_iff (ranges : List (Nat × Nat)) (n : Nat) :
    liesInRanges ranges n = true ↔ ∃ range ∈ ranges, range.1 ≤ n ∧ n ≤ range.2 := by
  simp [liesInRanges, List.any_eq_true, Bool.and_eq_true]

/-- A number of one run lies in the runs. -/
theorem liesInRanges_of_mem {ranges : List (Nat × Nat)} {first last n : Nat}
    (hmem : (first, last) ∈ ranges) (hfirst : first ≤ n) (hlast : n ≤ last) :
    liesInRanges ranges n = true :=
  (liesInRanges_iff ranges n).mpr ⟨(first, last), hmem, hfirst, hlast⟩

/-- No number below the beginning of every run lies in the runs. -/
theorem not_liesInRanges_of_lt {ranges : List (Nat × Nat)} {bound n : Nat}
    (hbound : (ranges.all fun range => bound ≤ range.1) = true) (hn : n < bound) :
    liesInRanges ranges n = false := by
  rw [Bool.eq_false_iff, ne_eq, liesInRanges_iff]
  rintro ⟨range, hmem, hfirst, -⟩
  have hle := of_decide_eq_true (List.all_eq_true.mp hbound range hmem)
  omega

end Discussion
