import Discussion.Proofs.Forest.Growth

/-!
# Rearranged forests

Two forests may differ in the order of siblings only, at any level.  What such forests
hold, and where each thing hangs, is the same.  Forests that have grown from the same
seeds by the same offspring, but in different orders, are rearrangements of each other.
-/

namespace Discussion

universe u v

namespace Forest

variable {α : Type u} {σ : Type v}

/-- Whether two forests differ in the order of siblings only. -/
inductive Rearranged : (forest other : Forest α) → Prop
  | nil : Rearranged nil nil
  | node (label : α) {children children' siblings siblings' : Forest α}
      (hchildren : Rearranged children children') (hsiblings : Rearranged siblings siblings') :
      Rearranged (node label children siblings) (node label children' siblings')
  | swap (first second : α) (below below' siblings : Forest α) :
      Rearranged (node first below (node second below' siblings))
        (node second below' (node first below siblings))
  | trans {forest middle other : Forest α} (hfirst : Rearranged forest middle)
      (hsecond : Rearranged middle other) : Rearranged forest other

namespace Rearranged

variable {forest other : Forest α}

theorem refl (forest : Forest α) : Rearranged forest forest := by
  induction forest with
  | nil => exact .nil
  | node label children siblings ihc ihs => exact .node label ihc ihs

theorem anyRoot_eq (h : Rearranged forest other) (p : α → Bool) :
    forest.anyRoot p = other.anyRoot p := by
  induction h with
  | nil => rfl
  | node label _ _ _ ihs => rw [anyRoot, anyRoot, ihs]
  | swap first second _ _ siblings => simp only [anyRoot, Bool.or_left_comm]
  | trans _ _ ihfirst ihsecond => rw [ihfirst, ihsecond]

/-- Rearranged forests hold the same labels, each with the same inheritance. -/
theorem visits_perm (h : Rearranged forest other) (down : σ → α → σ) (inherited : σ) :
    ((forest.visits down inherited).map fun visit => (visit.1, visit.2.label)).Perm
      ((other.visits down inherited).map fun visit => (visit.1, visit.2.label)) := by
  rw [visits_eq, visits_eq]
  induction h generalizing inherited with
  | nil => exact .refl _
  | node label _ _ ihc ihs =>
      simp only [visitsFrom, List.map_cons, List.map_append]
      exact ((ihc _).append (ihs _)).cons _
  | swap first second below below' siblings =>
      simp only [visitsFrom, List.map_cons, List.map_append, ← List.cons_append]
      exact List.perm_append_comm_assoc _ _ _
  | trans _ _ ihfirst ihsecond => exact (ihfirst inherited).trans (ihsecond inherited)

theorem rows_perm (h : Rearranged forest other) : forest.rows.Perm other.rows := by
  have hvisits := h.visits_perm (fun place label => (place.1 + 1, some label)) (0, none)
  simpa only [rows, List.map_map, Function.comp_def] using
    hvisits.map fun visit => (visit.1.1, visit.1.2, visit.2)

/-! ## Growing in another order -/

theorem ofTrees_perm {trees others : List (Tree α)} (h : trees.Perm others) :
    Rearranged (ofTrees trees) (ofTrees others) := by
  induction h with
  | nil => exact .nil
  | cons tree _ ih =>
      rw [ofTrees_cons, ofTrees_cons]
      exact .node tree.label (refl tree.children) ih
  | swap first second rest =>
      simp only [ofTrees_cons]
      exact .swap ..
  | trans _ _ ihfirst ihsecond => exact .trans ihfirst ihsecond

theorem ofTrees_children {below below' : α → Forest α}
    (h : ∀ label, Rearranged (below label) (below' label)) (labels : List α) :
    Rearranged (ofTrees (labels.map fun label => { label := label, children := below label }))
      (ofTrees (labels.map fun label => { label := label, children := below' label })) := by
  induction labels with
  | nil => exact .nil
  | cons label rest ih =>
      simp only [List.map_cons, ofTrees_cons]
      exact .node label (h label) ih

/-- What has grown from the same seeds by the same offspring, each in some order. -/
theorem grow_perm {offspring offspring' : α → List α}
    (hoffspring : ∀ label, (offspring label).Perm (offspring' label)) (depth : Nat)
    {seeds seeds' : List α} (hseeds : seeds.Perm seeds') :
    Rearranged (grow offspring depth seeds) (grow offspring' depth seeds') := by
  induction depth generalizing seeds seeds' with
  | zero => exact .nil
  | succ depth ih =>
      have hbelow : ∀ label, Rearranged (grow offspring depth (offspring label))
          (grow offspring' depth (offspring' label)) := by
        intro label
        exact ih (hoffspring label)
      exact (ofTrees_children hbelow seeds).trans (ofTrees_perm (hseeds.map _))

end Rearranged

end Forest

end Discussion
