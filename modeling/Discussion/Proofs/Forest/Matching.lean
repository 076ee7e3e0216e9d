import Discussion.Proofs.Forest.Address

/-!
# Forests of the same shape

Two forests match in a relation if they have the same shape and every label of the one
stands in the relation to the label that the other has in its place.  Matching forests
have their nodes at the same addresses, with matching labels on the way there.

Two runs along matching forests are compared one step at a time.  If steps keep what
they hand down related, and make related labels from what is related, then the forests
that the runs make match as well.
-/

namespace Discussion

universe u v w

variable {α α' : Type u} {β β' : Type w} {σ σ' : Type v}

namespace Forest

/-- Whether two forests have the same shape, with labels in a relation place by place. -/
inductive Matches (r : α → α' → Prop) : Forest α → Forest α' → Prop
  | nil : Matches r nil nil
  | node {label : α} {label' : α'} {children siblings : Forest α}
      {children' siblings' : Forest α'} (hlabel : r label label')
      (hchildren : Matches r children children') (hsiblings : Matches r siblings siblings') :
      Matches r (node label children siblings) (node label' children' siblings')

theorem Matches.swap
    {r : α → α' → Prop} {forest : Forest α} {other : Forest α'} (h : forest.Matches r other) :
    other.Matches (fun label' label => r label label') forest := by
  induction h with
  | nil => exact .nil
  | node hlabel _ _ ihc ihs => exact .node hlabel ihc ihs

theorem Matches.and
    {r q : α → α' → Prop} {forest : Forest α} {other : Forest α'} (h : forest.Matches r other)
    (hq : forest.Matches q other) :
    forest.Matches (fun label label' => r label label' ∧ q label label') other := by
  induction h with
  | nil => exact .nil
  | node hlabel _ _ ihc ihs =>
      cases hq with
      | node hlabel' hchildren hsiblings =>
          exact .node ⟨hlabel, hlabel'⟩ (ihc hchildren) (ihs hsiblings)

theorem Matches.anyRoot
    {r : α → α' → Prop} {p : α → Bool} {q : α' → Bool} {forest : Forest α} {other : Forest α'}
    (h : forest.Matches r other)
    (hpq : ∀ label label', r label label' → p label = true → q label' = true)
    (hany : forest.anyRoot p = true) :
    other.anyRoot q = true := by
  induction h with
  | nil => exact hany
  | node hlabel _ _ _ ihs =>
      rw [Forest.anyRoot, Bool.or_eq_true] at hany ⊢
      exact hany.imp (hpq _ _ hlabel) ihs

/-! ## Addresses -/

/-- Where one of two matching forests has a node, the other one has a node, and the
labels on the way there match as well. -/
theorem Matches.exists_treeAt?
    {r : α → α' → Prop} {forest : Forest α} {other : Forest α'} (h : forest.Matches r other)
    {address : List Nat} {tree : Tree α} (htree : forest.treeAt? address = some tree) :
    ∃ tree', other.treeAt? address = some tree' ∧ r tree.label tree'.label ∧
      List.Forall₂ r (forest.above address) (other.above address) := by
  induction htree using treeAt?_induction generalizing other with
  | first label children siblings =>
      cases h with
      | node hlabel _ _ => exact ⟨_, rfl, hlabel, .nil⟩
  | below label children siblings i rest tree _ ih =>
      cases h with
      | node hlabel hchildren _ =>
          obtain ⟨tree', htree', htree, habove⟩ := ih hchildren
          exact ⟨tree', htree', htree, .cons hlabel habove⟩
  | beside label children siblings n rest tree _ ih =>
      cases h with
      | node _ _ hsiblings =>
          obtain ⟨tree', htree', htree, habove⟩ := ih hsiblings
          rw [above_beside, above_beside]
          exact ⟨tree', htree', htree, habove⟩

/-- Forests match if what they have at every address does. -/
theorem matches_of_treeAt?
    {r : α → α' → Prop} {forest : Forest α} {other : Forest α'}
    (h : ∀ address, Option.Rel (fun tree tree' => r tree.label tree'.label)
      (forest.treeAt? address) (other.treeAt? address)) :
    forest.Matches r other := by
  induction forest generalizing other with
  | nil =>
      cases other with
      | nil => exact .nil
      | node _ _ _ => cases h [0]
  | node label children siblings ihc ihs =>
      cases other with
      | nil => cases h [0]
      | node label' children' siblings' =>
          have hchildren : children.Matches r children' := by
            apply ihc
            intro address
            cases address with
            | nil => exact .none
            | cons i rest => exact h (0 :: i :: rest)
          have hsiblings : siblings.Matches r siblings' := by
            apply ihs
            intro address
            cases address with
            | nil => exact .none
            | cons n rest => exact h ((n + 1) :: rest)
          cases h [0] with
          | some hlabel => exact .node hlabel hchildren hsiblings

/-! ## Two runs side by side -/

/-- What a run makes of a forest matches what another run makes of a matching forest,
if every pair of steps hands down and makes what is related. -/
theorem Matches.decorate
    {r : α → α' → Prop} {s : β → β' → Prop} {place : σ → σ' → Prop}
    {down : σ → α → σ} {down' : σ' → α' → σ'}
    {make : σ → α → Forest β → β} {make' : σ' → α' → Forest β' → β'}
    (hdown : ∀ {inherited inherited' label label'}, place inherited inherited' →
      r label label' → place (down inherited label) (down' inherited' label'))
    (hmake : ∀ {inherited inherited' label label' children children'},
      place inherited inherited' → r label label' → Matches s children children' →
        s (make inherited label children) (make' inherited' label' children'))
    {forest : Forest α} {other : Forest α'} (h : forest.Matches r other)
    {inherited : σ} {inherited' : σ'} (hplace : place inherited inherited') :
    (forest.decorate down make inherited).Matches s
      (other.decorate down' make' inherited') := by
  induction h generalizing inherited inherited' with
  | nil => exact .nil
  | node hlabel _ _ ihc ihs =>
      have hchildren := ihc (hdown hplace hlabel)
      have hsiblings := ihs hplace
      exact .node (hmake hplace hlabel hchildren) hchildren hsiblings

end Forest

end Discussion
