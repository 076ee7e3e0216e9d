import Discussion.Proofs.Forest.Growth

/-!
# Evaluating a tree node by node

The value of a node is found from the values of its children.  A node that was reached either has
its value at once, or it is opened: it waits on a stack until all its children have their values.
How many of them have is told by the number of values, which points at the child that is reached
next.  A node whose children are all done is closed, and its value is added to those of the node
below it on the stack.  So no depth of a tree is too great, and the values are those that
recursion gives.
-/

namespace Discussion

universe u v w

variable {α : Type u} {σ : Type v} {β : Type w}

/-- What becomes of a node that is reached: it has its value at once, or it is opened. -/
inductive Visit (σ : Type v) (β : Type w)
  | decided (value : β)
  | opened (here : σ)

/-- A node that is open, with the values of its first children. -/
structure OpenNode (α : Type u) (σ : Type v) (β : Type w) where
  here : σ
  tree : Tree α
  values : List β

namespace OpenNode

/-- The child that is reached next. -/
def next? (node : OpenNode α σ β) : Option (Tree α) :=
  node.tree.children.trees[node.values.length]?

/-- Adds the value of the child that was reached last. -/
def add (node : OpenNode α σ β) (value : β) : OpenNode α σ β :=
  { node with values := node.values ++ [value] }

/-- The number of nodes below a node, but for those below its first children. -/
def sizeBeyond (node : OpenNode α σ β) (skipped : Nat) : Nat :=
  (Forest.ofTrees (node.tree.children.roots.drop skipped)).size

/-- A bound on the steps that are left.  The next child of a node on the stack was reached. -/
def stackWeight : List (OpenNode α σ β) → Nat
  | [] => 0
  | node :: stack => 2 * node.sizeBeyond (node.values.length + 1) + 1 + stackWeight stack

theorem drop_of_next? {node : OpenNode α σ β} {child : Tree α} (h : node.next? = some child) :
    node.tree.children.roots.drop node.values.length =
      child :: node.tree.children.roots.drop (node.values.length + 1) := by
  rw [next?, Forest.trees_eq] at h
  obtain ⟨hlength, rfl⟩ := List.getElem?_eq_some_iff.mp h
  exact List.drop_eq_getElem_cons hlength

theorem sizeBeyond_of_next? {node : OpenNode α σ β} {child : Tree α}
    (h : node.next? = some child) :
    node.sizeBeyond node.values.length =
      1 + child.children.size + node.sizeBeyond (node.values.length + 1) := by
  rw [sizeBeyond, drop_of_next? h, Forest.ofTrees_cons, Forest.size]
  rfl

theorem sizeBeyond_add (node : OpenNode α σ β) (value : β) :
    (node.add value).sizeBeyond (node.add value).values.length =
      node.sizeBeyond (node.values.length + 1) := by
  rw [add, List.length_append, List.length_singleton]
  rfl

theorem sizeBeyond_zero (node : OpenNode α σ β) :
    node.sizeBeyond 0 = node.tree.children.size := by
  rw [sizeBeyond, List.drop_zero, Forest.ofTrees_roots]

/-- Finds the value of the lowest node on the stack from that of the current one. -/
def evaluate (reach : σ → Tree α → Visit σ β) (close : σ → α → List β → β)
    (stack : List (OpenNode α σ β)) (current : OpenNode α σ β) : β :=
  match _ : current.next? with
  | some child =>
      match reach current.here child with
      | .decided value => evaluate reach close stack (current.add value)
      | .opened here => evaluate reach close (current :: stack) ⟨here, child, []⟩
  | none =>
      let value := close current.here current.tree.label current.values
      match stack with
      | [] => value
      | parent :: stack => evaluate reach close stack (parent.add value)
termination_by 2 * current.sizeBeyond current.values.length + stackWeight stack
decreasing_by
  · rw [sizeBeyond_add, sizeBeyond_of_next? ‹_›]
    omega
  · rw [List.length_nil, sizeBeyond_zero, stackWeight, sizeBeyond_of_next? ‹_›]
    simp only
    omega
  · rw [sizeBeyond_add, stackWeight]
    omega

end OpenNode

/-- The value of a tree that was reached. -/
def Tree.evaluate (reach : σ → Tree α → Visit σ β) (close : σ → α → List β → β)
    (tree : Tree α) : Visit σ β → β
  | .decided value => value
  | .opened here => OpenNode.evaluate reach close [] ⟨here, tree, []⟩

/-- The values of the trees of a forest, by structural recursion. -/
def Forest.valuesFrom (reach : σ → Tree α → Visit σ β) (close : σ → α → List β → β) :
    σ → Forest α → List β
  | _, nil => []
  | place, node label children siblings =>
      (match reach place { label := label, children := children } with
        | .decided value => value
        | .opened here => close here label (valuesFrom reach close here children)) ::
        valuesFrom reach close place siblings

theorem Forest.length_valuesFrom (reach : σ → Tree α → Visit σ β) (close : σ → α → List β → β)
    (place : σ) (forest : Forest α) :
    (forest.valuesFrom reach close place).length = forest.roots.length := by
  induction forest with
  | nil => rfl
  | node label children siblings _ ih =>
      rw [valuesFrom, roots, List.length_cons, List.length_cons, ih]

namespace OpenNode

variable {reach : σ → Tree α → Visit σ β} {close : σ → α → List β → β}
  {stack : List (OpenNode α σ β)} {current : OpenNode α σ β} {child : Tree α}

/-! ## What a step does -/

theorem evaluate_of_next? (h : current.next? = some child) :
    evaluate reach close stack current =
      match reach current.here child with
      | .decided value => evaluate reach close stack (current.add value)
      | .opened here => evaluate reach close (current :: stack) ⟨here, child, []⟩ := by
  rw [evaluate]
  split
  · next found hfound =>
      obtain rfl := Option.some.inj (h.symm.trans hfound)
      rfl
  · next hnone => cases h.symm.trans hnone

theorem evaluate_of_done (h : current.next? = none) :
    evaluate reach close stack current =
      match stack with
      | [] => close current.here current.tree.label current.values
      | parent :: stack =>
          evaluate reach close stack
            (parent.add (close current.here current.tree.label current.values)) := by
  rw [evaluate]
  split
  · next found hfound => cases h.symm.trans hfound
  · rfl

/-! ## What a run does -/

/-- A node is done when its children have their values. -/
theorem next?_valuesFrom (reach : σ → Tree α → Visit σ β) (close : σ → α → List β → β)
    (here : σ) (tree : Tree α) :
    next? ⟨here, tree, tree.children.valuesFrom reach close here⟩ = none := by
  rw [next?, Forest.trees_eq, Forest.length_valuesFrom]
  exact List.getElem?_length _

/-- The children that are left get their values one after the other, whatever waits on the
stack. -/
theorem evaluate_children {forest : Forest α}
    (h : current.tree.children.roots.drop current.values.length = forest.roots) :
    evaluate reach close stack current =
      evaluate reach close stack
        { current with values := current.values ++ forest.valuesFrom reach close current.here } := by
  -- The induction is on the children that are left.  A child that is opened is the current node
  -- until it is closed, with the node above it on the stack.
  induction forest generalizing stack current with
  | nil => simp [Forest.valuesFrom]
  | node label children siblings ihc ihs =>
      let child : Tree α := { label := label, children := children }
      have hnext : current.next? = some child := by
        rw [next?, Forest.trees_eq, ← List.head?_drop, h]
        rfl
      have hrest : ∀ value, (current.add value).tree.children.roots.drop
          (current.add value).values.length = siblings.roots := by
        intro value
        have hcons := (drop_of_next? hnext).symm.trans h
        rw [add, List.length_append, List.length_singleton]
        exact (List.cons.inj hcons).2
      rw [Forest.valuesFrom, List.append_cons]
      cases hreach : reach current.here child with
      | decided value =>
          simp only [evaluate_of_next? hnext, hreach]
          exact ihs (hrest value)
      | opened here =>
          have hdone := next?_valuesFrom reach close here child
          simp only [evaluate_of_next? hnext, hreach]
          rw [ihc rfl, List.nil_append, evaluate_of_done hdone]
          exact ihs (hrest _)

theorem evaluate_eq (here : σ) (tree : Tree α) :
    evaluate reach close [] ⟨here, tree, []⟩ =
      close here tree.label (tree.children.valuesFrom reach close here) := by
  have hdone := next?_valuesFrom reach close here tree
  rw [evaluate_children rfl, List.nil_append, evaluate_of_done hdone]

end OpenNode

/-- The values of the trees of a forest are those of its trees, one by one. -/
theorem Forest.valuesFrom_eq_map (reach : σ → Tree α → Visit σ β) (close : σ → α → List β → β)
    (place : σ) (forest : Forest α) :
    forest.valuesFrom reach close place =
      forest.trees.map fun tree => tree.evaluate reach close (reach place tree) := by
  rw [trees_eq]
  induction forest with
  | nil => rfl
  | node label children siblings _ ih =>
      rw [valuesFrom, roots, List.map_cons, ih]
      cases hreach : reach place { label := label, children := children } with
      | decided value => rfl
      | opened here => rw [Tree.evaluate, OpenNode.evaluate_eq]

end Discussion
