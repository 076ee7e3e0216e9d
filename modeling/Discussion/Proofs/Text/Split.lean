import Discussion.Text.Split

/-!
# Parts of a text

The parts between the marks of a text are those of the library's `List.splitOn`.
-/

namespace Discussion

theorem splitOn_of_notMem {mark : Char} {cs : List Char} (h : mark ∉ cs) :
    cs.splitOn mark = [cs] := by
  refine List.splitOnP_eq_singleton fun c hc => ?_
  rw [beq_eq_false_iff_ne]
  rintro rfl
  exact h hc

theorem splitOn_append (mark : Char) (before after : List Char) :
    (before ++ mark :: after).splitOn mark = before.splitOn mark ++ after.splitOn mark := by
  simp only [List.splitOn_eq_splitOnP]
  exact List.splitOnP_append_cons before after (beq_self_eq_true mark)

/-- The first part ends before the first mark. -/
theorem splitOn_append_of_notMem {mark : Char} {before : List Char} (h : mark ∉ before)
    (after : List Char) :
    (before ++ mark :: after).splitOn mark = before :: after.splitOn mark := by
  rw [splitOn_append, splitOn_of_notMem h]
  rfl

theorem splitAtMarks_eq_splitOn (mark : Char) (cs : List Char) :
    splitAtMarks mark cs = cs.splitOn mark := by
  induction cs with
  | nil => rfl
  | cons c cs ih =>
      rw [List.splitOn_eq_splitOnP] at ih ⊢
      rw [splitAtMarks, List.splitOnP_cons_eq_if_modifyHead, ← ih]
      by_cases h : c = mark
      · simp [h]
      · obtain ⟨part, parts, hparts⟩ := List.exists_cons_of_ne_nil (splitAtMarks_ne_nil mark cs)
        simp [h, hparts]

theorem splitAtMarks_append (mark : Char) (before after : List Char) :
    splitAtMarks mark (before ++ mark :: after) =
      splitAtMarks mark before ++ splitAtMarks mark after := by
  simp only [splitAtMarks_eq_splitOn, splitOn_append]

theorem splitAtMarks_of_notMem {mark : Char} {cs : List Char} (h : mark ∉ cs) :
    splitAtMarks mark cs = [cs] := by
  rw [splitAtMarks_eq_splitOn, splitOn_of_notMem h]

/-- A joined text holds nothing but its parts and the marks between them. -/
theorem eq_or_mem_of_mem_intercalate {mark c : Char} {parts : List (List Char)}
    (h : c ∈ [mark].intercalate parts) : c = mark ∨ ∃ part ∈ parts, c ∈ part := by
  induction parts with
  | nil => exact absurd h (by simp)
  | cons part parts ih =>
      cases parts with
      | nil => exact Or.inr ⟨part, List.mem_cons_self, by simpa using h⟩
      | cons next others =>
          rw [List.intercalate_cons_cons, List.append_assoc, List.mem_append, List.mem_append,
            List.mem_singleton] at h
          rcases h with hpart | hmark | hrest
          · exact Or.inr ⟨part, List.mem_cons_self, hpart⟩
          · exact Or.inl hmark
          · exact (ih hrest).imp_right fun ⟨other, hother, hc⟩ =>
              ⟨other, List.mem_cons_of_mem part hother, hc⟩

end Discussion
