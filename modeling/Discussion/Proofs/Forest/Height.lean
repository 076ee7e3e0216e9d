import Discussion.Forest.Basic

/-!
# The height of a forest

The number of levels of a forest, which bounds the depths in its rows.
-/

namespace Discussion

universe u

variable {α : Type u}

namespace Forest

/-- The number of levels of a forest. -/
def height : Forest α → Nat
  | nil => 0
  | node _ children siblings => max (1 + children.height) siblings.height

/-- How deep the nodes of a forest stand that itself begins at some depth. -/
theorem forall_visits_depth_le_iff (forest : Forest α) (bound depth : Nat) (parent : Option α) :
    (∀ visit ∈ visitsFrom (fun place label => (place.1 + 1, some label)) (depth, parent) forest,
      visit.1.1 ≤ bound) ↔ forest.height ≤ bound + 1 - depth := by
  induction forest generalizing depth parent with
  | nil => simp [visitsFrom, height]
  | node label children siblings ihc ihs =>
      rw [visitsFrom, List.forall_mem_cons, List.forall_mem_append, ihc, ihs, height]
      dsimp only
      omega

theorem forall_rows_depth_le_iff (forest : Forest α) (bound : Nat) :
    (∀ row ∈ forest.rows, row.1 ≤ bound) ↔ forest.height ≤ bound + 1 := by
  rw [rows, visits_eq, List.forall_mem_map]
  exact forall_visits_depth_le_iff forest bound 0 none

end Forest

end Discussion
