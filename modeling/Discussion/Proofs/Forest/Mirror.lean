import Discussion.Proofs.Forest.Following

/-!
# The mirror image of a forest

In the mirror image of a forest the siblings stand in the reverse order, at every level.
Mirroring twice changes nothing.  The mirror image of a forest that follows a function follows
the function that lists the same children backwards.
-/

namespace Discussion

universe u

variable {α : Type u}

namespace Forest

/-- The forest with the siblings of every level in the reverse order. -/
def mirror : Forest α → Forest α
  | nil => nil
  | node label children siblings =>
      ofTrees (siblings.mirror.roots ++ [{ label := label, children := children.mirror }])

end Forest

/-- The tree with the siblings of every level below its root in the reverse order. -/
def Tree.mirror (tree : Tree α) : Tree α :=
  { tree with children := tree.children.mirror }

namespace Forest

theorem roots_mirror (forest : Forest α) :
    forest.mirror.roots = (forest.roots.map Tree.mirror).reverse := by
  induction forest with
  | nil => rfl
  | node label children siblings _ ih => simp [mirror, roots, ih, Tree.mirror]

theorem map_label_roots_mirror (forest : Forest α) :
    forest.mirror.roots.map (·.label) = (forest.roots.map (·.label)).reverse := by
  rw [roots_mirror, List.map_reverse, List.map_map]
  rfl

theorem mirror_ofTrees (trees : List (Tree α)) :
    (ofTrees trees).mirror = ofTrees (trees.map Tree.mirror).reverse := by
  rw [← ofTrees_roots (ofTrees trees).mirror, roots_mirror, roots_ofTrees]

theorem mirror_mirror (forest : Forest α) : forest.mirror.mirror = forest := by
  induction forest with
  | nil => rfl
  | node label children siblings ihc ihs =>
      have hsiblings : ofTrees (siblings.mirror.roots.map Tree.mirror).reverse = siblings := by
        rw [← mirror_ofTrees, ofTrees_roots, ihs]
      rw [mirror, mirror_ofTrees, List.map_append, List.reverse_append, List.map_singleton,
        List.reverse_singleton, List.singleton_append, ofTrees_cons, hsiblings, Tree.mirror, ihc]

theorem follows_iff {offspring : α → List α} {forest : Forest α} :
    forest.Follows offspring ↔ ∀ tree ∈ forest.roots,
      tree.children.roots.map (·.label) = offspring tree.label ∧
        tree.children.Follows offspring := by
  induction forest with
  | nil => simp [Follows, roots]
  | node label children siblings _ ih => simp [follows_node_iff, roots, ih, and_assoc]

theorem Follows.mirror {offspring : α → List α} {forest : Forest α} (h : forest.Follows offspring) :
    forest.mirror.Follows fun label => (offspring label).reverse := by
  induction forest with
  | nil => simp [Follows, Forest.mirror]
  | node label children siblings ihc ihs =>
      obtain ⟨hroots, hchildren, hsiblings⟩ := follows_node_iff.mp h
      rw [follows_iff, Forest.mirror, roots_ofTrees]
      intro tree htree
      rcases List.mem_append.mp htree with hbeside | hfirst
      · exact follows_iff.mp (ihs hsiblings) tree hbeside
      · obtain rfl := List.mem_singleton.mp hfirst
        exact ⟨by rw [map_label_roots_mirror, hroots], ihc hchildren⟩

end Forest

end Discussion
