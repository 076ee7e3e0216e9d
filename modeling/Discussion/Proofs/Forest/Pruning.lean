import Discussion.Proofs.Forest.Address

/-!
# Pruning a forest

A forest loses the nodes that fail a test, each with all that stands below it.  The
test looks at the label of the node, or at the label that another forest of the same
shape has in its place.  Where failing is inherited, so that whatever stands below a
node that fails the test fails it too, pruning takes nothing away but the nodes that
fail.
-/

namespace Discussion

universe u v

variable {α : Type u} {β : Type v}

namespace Forest

/-- The forest without the nodes that fail a test and all that stands below them. -/
def prune (p : α → Bool) : Forest α → Forest α
  | nil => nil
  | node label children siblings =>
      if p label then node label (children.prune p) (siblings.prune p) else siblings.prune p

/-- The forest without the nodes in whose place a forest of the same shape has a label
that fails a test, and without all that stands below them. -/
def pruneAlong (p : β → Bool) : Forest β → Forest α → Forest α
  | node mark below beside, node label children siblings =>
      if p mark then node label (pruneAlong p below children) (pruneAlong p beside siblings)
      else pruneAlong p beside siblings
  | _, _ => nil

/-- Whether all that stands below a node that fails a test fails it too. -/
def FailsDownward (p : α → Bool) (forest : Forest α) : Prop :=
  ∀ tree ∈ forest.subtrees, p tree.label = false →
    ∀ label ∈ tree.children.labels, p label = false

@[simp]
theorem anyRoot_prune (p : α → Bool) (forest : Forest α) :
    (forest.prune p).anyRoot p = forest.anyRoot p := by
  induction forest with
  | nil => rfl
  | node label children siblings _ ih =>
      cases hlabel : p label with
      | true => simp [prune, anyRoot, hlabel]
      | false => simpa [prune, anyRoot, hlabel] using ih

theorem labels_prune
    {p : α → Bool} {forest : Forest α} (h : forest.FailsDownward p) :
    (forest.prune p).labels = forest.labels.filter p := by
  induction forest with
  | nil => simp [prune]
  | node label children siblings ihc ihs =>
      have hchildren : children.FailsDownward p := by
        intro tree htree
        exact h tree (by simp [htree])
      have hsiblings : siblings.FailsDownward p := by
        intro tree htree
        exact h tree (by simp [htree])
      cases hlabel : p label with
      | true => simp [prune, hlabel, ihc hchildren, ihs hsiblings]
      | false =>
          have hbelow : children.labels.filter p = [] := by
            rw [List.filter_eq_nil_iff]
            intro below hmem
            simp [h { label := label, children := children } (by simp) hlabel below hmem]
          simp [prune, hlabel, hbelow, ihs hsiblings]

end Forest

end Discussion
