import Mathlib.Algebra.Ring.Nat
import Discussion.Instant.Calendar

/-!
# Dates and day numbers

Every day number is that of one valid date, the one which the calendar gives for it.
The year is found by an estimate that is off by at most one; the month is found by going
through the lengths of the months.
-/

namespace Discussion

namespace Date

/-- The days of a year end where those of the next begin. -/
theorem daysBeforeYear_succ (year : Int) :
    daysBeforeYear (year + 1) = daysBeforeYear year + (monthLengths (isLeapYear year)).sum := by
  by_cases hleap : isLeapYear year = true
  · have hsum : (monthLengths (isLeapYear year)).sum = 366 := by
      rw [hleap]
      rfl
    rw [hsum]
    simp only [isLeapYear, Bool.and_eq_true, Bool.or_eq_true, beq_iff_eq, bne_iff_ne] at hleap
    simp only [daysBeforeYear]
    omega
  · have hsum : (monthLengths (isLeapYear year)).sum = 365 := by
      rw [Bool.not_eq_true] at hleap
      rw [hleap]
      rfl
    rw [hsum]
    simp only [isLeapYear, Bool.and_eq_true, Bool.or_eq_true, beq_iff_eq, bne_iff_ne] at hleap
    simp only [daysBeforeYear]
    omega

/-- A day lies in the year that is found for it. -/
theorem yearOfDay_spec (day : Int) :
    daysBeforeYear (yearOfDay day) ≤ day ∧ day < daysBeforeYear (yearOfDay day + 1) := by
  have hestimate : 146097 * (400 * day / 146097) ≤ 400 * day ∧
      400 * day < 146097 * (400 * day / 146097) + 146097 := by
    omega
  simp only [yearOfDay]
  generalize 400 * day / 146097 = estimate at hestimate ⊢
  obtain ⟨hlow, hhigh⟩ := hestimate
  by_cases hbefore : day < daysBeforeYear estimate
  · rw [if_pos hbefore, Int.sub_add_cancel]
    simp only [daysBeforeYear] at hbefore ⊢
    omega
  · by_cases hafter : daysBeforeYear (estimate + 1) ≤ day
    · rw [if_neg hbefore, if_pos hafter]
      simp only [daysBeforeYear] at hafter ⊢
      omega
    · rw [if_neg hbefore, if_neg hafter]
      omega

/-- The month that is found for an offset holds it, after all the months before. -/
theorem monthAndDay_spec {lengths : List Nat} (month : Nat) {offset : Nat}
    (h : offset < lengths.sum) :
    ∃ index, index < lengths.length ∧ (monthAndDay lengths month offset).1 = month + index ∧
      1 ≤ (monthAndDay lengths month offset).2 ∧
      (monthAndDay lengths month offset).2 ≤ lengths.getD index 0 ∧
      (lengths.take index).foldl (· + ·) ((monthAndDay lengths month offset).2 - 1) = offset := by
  induction lengths generalizing month offset with
  | nil => simp at h
  | cons length rest ih =>
      by_cases hin : offset < length
      · refine ⟨0, by simp, ?_⟩
        simp only [monthAndDay, if_pos hin]
        refine ⟨rfl, by omega, ?_, by simp⟩
        simp only [List.getD_cons_zero]
        omega
      · rw [List.sum_cons] at h
        have hrest : offset - length < rest.sum := by omega
        obtain ⟨index, hindex, hmonth, hpos, hday, hoffset⟩ := ih (month + 1) hrest
        refine ⟨index + 1, by simpa using hindex, ?_⟩
        simp only [monthAndDay, if_neg hin]
        refine ⟨by omega, hpos, by simpa using hday, ?_⟩
        rw [List.take_succ_cons, List.foldl_cons, Nat.add_comm, List.foldl_assoc, hoffset]
        omega

theorem monthLength_le (leap : Bool) (index : Nat) : (monthLengths leap).getD index 0 ≤ 31 := by
  have hall : ∀ length ∈ monthLengths leap, length ≤ 31 := by
    cases leap <;> decide
  rw [List.getD_eq_getElem?_getD]
  cases hget : (monthLengths leap)[index]? with
  | none => exact Nat.zero_le _
  | some length => exact hall length (List.mem_of_getElem? hget)

/-- The month and the day that are found for a day number in its year. -/
theorem ofDayNumber_eq (day : Int) :
    ofDayNumber day =
      { year := yearOfDay day
        month := (monthAndDay (monthLengths (isLeapYear (yearOfDay day))) 1
          (day - daysBeforeYear (yearOfDay day)).toNat).1
        day := (monthAndDay (monthLengths (isLeapYear (yearOfDay day))) 1
          (day - daysBeforeYear (yearOfDay day)).toNat).2 } := rfl

/-- The date of a day number exists and has that day number. -/
theorem ofDayNumber_spec (day : Int) :
    (ofDayNumber day).IsValid ∧ (ofDayNumber day).dayNumber = day := by
  obtain ⟨hlow, hhigh⟩ := yearOfDay_spec day
  rw [daysBeforeYear_succ] at hhigh
  have hoffset : (day - daysBeforeYear (yearOfDay day)).toNat <
      (monthLengths (isLeapYear (yearOfDay day))).sum := by
    omega
  obtain ⟨index, hindex, hmonth, hpos, hday, hsum⟩ := monthAndDay_spec 1 hoffset
  have hlength : (monthLengths (isLeapYear (yearOfDay day))).length = 12 := rfl
  have hbefore : 1 + index - 1 = index := by omega
  rw [ofDayNumber_eq, IsValid, dayNumber]
  simp only [hmonth, hbefore, hsum]
  refine ⟨⟨by omega, by omega, hpos, hday⟩, ?_⟩
  omega

end Date

end Discussion
