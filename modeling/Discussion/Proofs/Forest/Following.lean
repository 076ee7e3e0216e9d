import Discussion.Proofs.Forest.Growth

/-!
# Forests that follow a function

A forest follows a function if the function gives, for the label of every node, the
labels of its children.  A forest that follows a function is determined by its roots.
What has grown for long enough follows what it has grown by.
-/

namespace Discussion

universe u

variable {α : Type u}

namespace Forest

/-! ## Trees within a forest -/

/-- The labels of a tree within a forest stand together in the forest, in their order. -/
theorem sublist_labels_of_mem_subtrees
    {forest : Forest α} {tree : Tree α} (h : tree ∈ forest.subtrees) :
    (tree.label :: tree.children.labels).Sublist forest.labels := by
  induction forest with
  | nil => simp at h
  | node label children siblings ihc ihs =>
      rw [labels_node]
      rw [subtrees_node, List.mem_cons, List.mem_append] at h
      rcases h with rfl | hbelow | hbeside
      · exact (List.sublist_append_left children.labels siblings.labels).cons_cons label
      · exact ((ihc hbelow).trans (List.sublist_append_left ..)).cons label
      · exact ((ihs hbeside).trans (List.sublist_append_right ..)).cons label

theorem subset_subtrees_of_mem_subtrees
    {forest : Forest α} {tree : Tree α} (h : tree ∈ forest.subtrees) :
    tree.children.subtrees ⊆ forest.subtrees := by
  induction forest with
  | nil => simp at h
  | node label children siblings ihc ihs =>
      intro below hbelow
      rw [subtrees_node, List.mem_cons, List.mem_append] at h ⊢
      right
      rcases h with rfl | hchild | hbeside
      · exact Or.inl hbelow
      · exact Or.inl (ihc hchild hbelow)
      · exact Or.inr (ihs hbeside hbelow)

theorem mem_labels_of_mem_subtrees
    {forest : Forest α} {tree : Tree α} (h : tree ∈ forest.subtrees) :
    tree.label ∈ forest.labels :=
  List.mem_map.mpr ⟨tree, h, rfl⟩

theorem map_label_roots_subset_labels (forest : Forest α) :
    forest.roots.map (·.label) ⊆ forest.labels := by
  intro label hlabel
  obtain ⟨tree, htree, rfl⟩ := List.mem_map.mp hlabel
  rw [labels_eq]
  exact List.mem_flatMap.mpr ⟨tree, htree, List.mem_cons_self ..⟩

/-- Whoever is in a forest is a root, or a child of somebody in the forest. -/
theorem mem_roots_or_children_of_mem_labels
    {forest : Forest α} {label : α} (h : label ∈ forest.labels) :
    label ∈ forest.roots.map (·.label) ∨
      ∃ tree ∈ forest.subtrees, label ∈ tree.children.roots.map (·.label) := by
  induction forest with
  | nil => simp at h
  | node top children siblings ihc ihs =>
      simp only [subtrees_node, List.mem_cons, List.mem_append, roots, List.map_cons]
      rw [labels_node, List.mem_cons, List.mem_append] at h
      rcases h with rfl | hbelow | hbeside
      · exact Or.inl (Or.inl rfl)
      · right
        rcases ihc hbelow with hchild | ⟨tree, htree, hchild⟩
        · exact ⟨_, Or.inl rfl, hchild⟩
        · exact ⟨tree, Or.inr (Or.inl htree), hchild⟩
      · rcases ihs hbeside with hroot | ⟨tree, htree, hchild⟩
        · exact Or.inl (Or.inr hroot)
        · exact Or.inr ⟨tree, Or.inr (Or.inr htree), hchild⟩

/-- Within a tree, the children of every node stand below the root. -/
theorem map_label_children_subset
    {label : α} {children : Forest α} {tree : Tree α}
    (h : tree ∈ (node label children nil).subtrees) :
    tree.children.roots.map (·.label) ⊆ children.labels := by
  rw [subtrees_node, subtrees_nil, List.append_nil, List.mem_cons] at h
  rcases h with rfl | hbelow
  · exact map_label_roots_subset_labels children
  · intro below hmem
    apply (sublist_labels_of_mem_subtrees hbelow).subset
    exact List.mem_cons_of_mem _ (map_label_roots_subset_labels tree.children hmem)

theorem exists_eq_node_of_roots {forest : Forest α} {label : α}
    (h : forest.roots.map (·.label) = [label]) :
    ∃ children, forest = node label children nil := by
  cases forest with
  | nil => simp [roots] at h
  | node first children siblings =>
      cases siblings with
      | nil =>
          obtain rfl : first = label := by simpa [roots] using h
          exact ⟨children, rfl⟩
      | node _ _ _ => simp [roots] at h

/-! ## Following -/

/-- Whether the children of every node are those that a function gives for its label. -/
def Follows (offspring : α → List α) (forest : Forest α) : Prop :=
  ∀ tree ∈ forest.subtrees, tree.children.roots.map (·.label) = offspring tree.label

theorem follows_node_iff
    {offspring : α → List α} {label : α} {children siblings : Forest α} :
    (node label children siblings).Follows offspring ↔
      children.roots.map (·.label) = offspring label ∧
        children.Follows offspring ∧ siblings.Follows offspring := by
  simp only [Follows, subtrees_node, List.mem_cons, List.mem_append]
  constructor
  · intro h
    exact ⟨h _ (Or.inl rfl), fun tree htree => h tree (Or.inr (Or.inl htree)),
      fun tree htree => h tree (Or.inr (Or.inr htree))⟩
  · rintro ⟨hroot, hchildren, hsiblings⟩ tree (rfl | hbelow | hbeside)
    · exact hroot
    · exact hchildren tree hbelow
    · exact hsiblings tree hbeside

theorem Follows.of_mem_subtrees
    {offspring : α → List α} {forest : Forest α} (h : forest.Follows offspring)
    {tree : Tree α} (htree : tree ∈ forest.subtrees) :
    (node tree.label tree.children nil).Follows offspring := by
  rw [follows_node_iff]
  refine ⟨h tree htree, ?_, ?_⟩
  · intro below hbelow
    exact h below (subset_subtrees_of_mem_subtrees htree hbelow)
  · intro below hbelow
    simp at hbelow

theorem Follows.take
    {offspring : α → List α} {forest : Forest α} (h : forest.Follows offspring) (n : Nat) :
    (forest.take n).Follows offspring := by
  intro tree htree
  exact h tree (mem_subtrees_of_mem_take htree)

/-- With everybody, a forest that follows a function holds those that the function gives. -/
theorem Follows.mem_labels_of_mem_offspring
    {offspring : α → List α} {forest : Forest α} (h : forest.Follows offspring)
    {parent child : α} (hparent : parent ∈ forest.labels) (hchild : child ∈ offspring parent) :
    child ∈ forest.labels := by
  obtain ⟨tree, htree, rfl⟩ := List.mem_map.mp hparent
  rw [← h tree htree] at hchild
  apply (sublist_labels_of_mem_subtrees htree).subset
  exact List.mem_cons_of_mem _ (map_label_roots_subset_labels tree.children hchild)

/-- Only the labels of the forest matter to what it follows. -/
theorem Follows.congr
    {offspring other : α → List α} {forest : Forest α} (h : forest.Follows offspring)
    (hagree : ∀ label ∈ forest.labels, offspring label = other label) :
    forest.Follows other := by
  intro tree htree
  rw [h tree htree]
  exact hagree tree.label (mem_labels_of_mem_subtrees htree)

/-- Forests with the same roots that follow the same function are equal. -/
theorem eq_of_follows
    {offspring : α → List α} {forest other : Forest α}
    (h : forest.Follows offspring) (hother : other.Follows offspring)
    (hroots : forest.roots.map (·.label) = other.roots.map (·.label)) :
    forest = other := by
  induction forest generalizing other with
  | nil =>
      cases other with
      | nil => rfl
      | node _ _ _ => simp [roots] at hroots
  | node label children siblings ihc ihs =>
      cases other with
      | nil => simp [roots] at hroots
      | node label' children' siblings' =>
          simp only [roots, List.map_cons, List.cons.injEq] at hroots
          obtain ⟨rfl, hroots⟩ := hroots
          obtain ⟨hbelow, hchildren, hsiblings⟩ := follows_node_iff.mp h
          obtain ⟨hbelow', hchildren', hsiblings'⟩ := follows_node_iff.mp hother
          rw [ihc hchildren hchildren' (hbelow.trans hbelow'.symm),
            ihs hsiblings hsiblings' hroots]

end Forest

theorem IsFamily.follows_grow
    {parent? : α → Option α} {members seeds : List α} {offspring : α → List α}
    (h : IsFamily parent? members offspring seeds) :
    (Forest.grow offspring members.length seeds).Follows offspring := by
  intro tree htree
  obtain ⟨address, haddress⟩ := Forest.mem_subtrees_iff.mp htree
  exact h.roots_children haddress

end Discussion
