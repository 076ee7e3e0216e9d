/-!
# Splitting texts

The parts of a text between the occurrences of a mark.  There is one part more than
there are marks, and joining the parts with the mark gives the text back.
-/

namespace Discussion

/-- The parts of a text between its marks. -/
def splitAtMarks (mark : Char) : List Char → List (List Char)
  | [] => [[]]
  | c :: rest =>
      if c = mark then [] :: splitAtMarks mark rest
      else
        match splitAtMarks mark rest with
        | [] => [[c]]
        | part :: parts => (c :: part) :: parts

theorem splitAtMarks_ne_nil (mark : Char) (cs : List Char) : splitAtMarks mark cs ≠ [] := by
  cases cs with
  | nil => simp [splitAtMarks]
  | cons c rest =>
      rw [splitAtMarks]
      split
      · simp
      · split <;> simp

/-- The parts of a text joined by the mark are the text. -/
theorem intercalate_splitAtMarks (mark : Char) (cs : List Char) :
    [mark].intercalate (splitAtMarks mark cs) = cs := by
  induction cs with
  | nil => rfl
  | cons c rest ih =>
      have hne := splitAtMarks_ne_nil mark rest
      obtain ⟨part, parts, hparts⟩ := List.exists_cons_of_ne_nil hne
      rw [hparts] at ih
      by_cases h : c = mark
      · subst h
        have hstep : splitAtMarks c (c :: rest) = [] :: part :: parts := by
          rw [splitAtMarks, if_pos rfl, hparts]
        rw [hstep, List.intercalate_cons_cons, ih]
        rfl
      · have hstep : splitAtMarks mark (c :: rest) = (c :: part) :: parts := by
          rw [splitAtMarks, if_neg h, hparts]
        rw [hstep]
        cases parts with
        | nil =>
            have hpart : part = rest := by simpa using ih
            simp [hpart]
        | cons next others =>
            rw [List.intercalate_cons_cons] at ih ⊢
            simp [← ih]

end Discussion
