/-!
# Forests

Ordered forests with labelled nodes.  A forest is empty, or a first tree, given
by its label and the forest of its children, followed by further trees.

What a forest holds is read off its `parts`: the forest itself, then the parts
of its first tree's children, then the parts of the trees that follow.  Along
the way down a value is inherited from parents to children.  Threads may be
very deep and very wide, so the functions that run are loops over an explicit
stack; `partsLoop_eq` and `fold_eq` say that they compute what structural
recursion would.
-/

namespace Discussion

universe u v w

/-- An ordered forest with labelled nodes. -/
inductive Forest (α : Type u)
  | nil
  | node (label : α) (children siblings : Forest α)
deriving Repr, DecidableEq, Inhabited

/-- A tree: a label and the forest of its children. -/
structure Tree (α : Type u) where
  label : α
  children : Forest α
deriving Repr, DecidableEq

namespace Forest

variable {α : Type u} {σ : Type v} {β : Type w}

/-- The number of nodes. -/
def size : Forest α → Nat
  | nil => 0
  | node _ children siblings => 1 + children.size + siblings.size

/-! ## The parts of a forest -/

/-- The forest and the forests below and beside its nodes, the empty ones
included, each with what it inherits.  `down` says what a node's children
inherit. -/
def parts (down : σ → α → σ) : σ → Forest α → List (σ × Forest α)
  | inherited, nil => [(inherited, nil)]
  | inherited, node label children siblings =>
      (inherited, node label children siblings) ::
        (parts down (down inherited label) children ++ parts down inherited siblings)

/-- A bound on the steps that a stack of forests takes. -/
def stackWeight : List (σ × Forest α) → Nat
  | [] => 0
  | (_, forest) :: rest => (2 * forest.size + 1) + stackWeight rest

/-- The parts of the forests on a stack, added in reverse to those found before. -/
def partsLoop (down : σ → α → σ) (stack : List (σ × Forest α))
    (found : List (σ × Forest α)) : List (σ × Forest α) :=
  match stack with
  | [] => found
  | (inherited, nil) :: rest => partsLoop down rest ((inherited, nil) :: found)
  | (inherited, node label children siblings) :: rest =>
      partsLoop down ((down inherited label, children) :: (inherited, siblings) :: rest)
        ((inherited, node label children siblings) :: found)
termination_by stackWeight stack
decreasing_by all_goals simp only [stackWeight, size]; omega

/-- The parts of a forest in reverse. -/
def reverseParts (down : σ → α → σ) (inherited : σ) (forest : Forest α) :
    List (σ × Forest α) :=
  partsLoop down [(inherited, forest)] []

theorem partsLoop_eq (down : σ → α → σ) (stack found : List (σ × Forest α)) :
    partsLoop down stack found =
      (stack.flatMap fun entry => parts down entry.1 entry.2).reverse ++ found := by
  fun_induction partsLoop down stack found with
  | case1 found => simp
  | case2 found inherited rest ih => simp [ih, parts]
  | case3 found inherited label children siblings rest ih => simp [ih, parts]

theorem reverseParts_eq (down : σ → α → σ) (inherited : σ) (forest : Forest α) :
    reverseParts down inherited forest = (parts down inherited forest).reverse := by
  simp [reverseParts, partsLoop_eq]

/-! ## Visits -/

/-- The tree at the front of a part, if it is not empty. -/
def front? : σ × Forest α → Option (σ × Tree α)
  | (_, nil) => none
  | (inherited, node label children _) => some (inherited, { label := label, children := children })

/-- The trees of a forest at all levels, every node before its children and its
children before its later siblings, each with what it inherits. -/
def visits (down : σ → α → σ) (inherited : σ) (forest : Forest α) : List (σ × Tree α) :=
  (reverseParts down inherited forest).foldl
    (fun found part => (front? part).elim found (· :: found)) []

/-- The trees of a forest at all levels, by structural recursion. -/
def visitsFrom (down : σ → α → σ) : σ → Forest α → List (σ × Tree α)
  | _, nil => []
  | inherited, node label children siblings =>
      (inherited, { label := label, children := children }) ::
        (visitsFrom down (down inherited label) children ++ visitsFrom down inherited siblings)

theorem filterMap_front?_parts (down : σ → α → σ) (inherited : σ) (forest : Forest α) :
    (parts down inherited forest).filterMap front? = visitsFrom down inherited forest := by
  induction forest generalizing inherited with
  | nil => rfl
  | node label children siblings ihc ihs =>
      simp [parts, visitsFrom, front?, ihc, ihs]

theorem foldl_front? (parts : List (σ × Forest α)) (found : List (σ × Tree α)) :
    parts.foldl (fun found part => (front? part).elim found (· :: found)) found =
      (parts.filterMap front?).reverse ++ found := by
  induction parts generalizing found with
  | nil => rfl
  | cons part rest ih =>
      rw [List.foldl_cons, ih, List.filterMap_cons]
      cases front? part <;> simp

theorem visits_eq (down : σ → α → σ) (inherited : σ) (forest : Forest α) :
    visits down inherited forest = visitsFrom down inherited forest := by
  rw [visits, foldl_front?, reverseParts_eq, List.filterMap_reverse, filterMap_front?_parts]
  simp

/-- The trees of a forest at all levels in preorder. -/
def subtrees (forest : Forest α) : List (Tree α) :=
  (forest.visits (fun _ _ => ()) ()).map (·.2)

/-- The labels of a forest in preorder. -/
def labels (forest : Forest α) : List α :=
  forest.subtrees.map (·.label)

/-- The number of nodes, counted along the visits. -/
def count (forest : Forest α) : Nat :=
  forest.subtrees.length

/-- The first tree in preorder whose label is as asked. -/
def find? (p : α → Bool) (forest : Forest α) : Option (Tree α) :=
  forest.subtrees.find? fun tree => p tree.label

/-- The depth and the parent's label of every node, with its label, in preorder. -/
def rows (forest : Forest α) : List (Nat × Option α × α) :=
  (forest.visits (fun place label => (place.1 + 1, some label)) ((0, none) : Nat × Option α)).map
    fun (place, tree) => (place.1, place.2, tree.label)

/-- Whether the forest has no node. -/
def isEmpty : Forest α → Bool
  | nil => true
  | node _ _ _ => false

/-! ## Trees side by side -/

/-- The trees of a list, added in reverse before a forest. -/
def prependReversed : List (Tree α) → Forest α → Forest α
  | [], forest => forest
  | tree :: rest, forest => prependReversed rest (node tree.label tree.children forest)

/-- The forest of the trees of a list. -/
def ofTrees (trees : List (Tree α)) : Forest α :=
  prependReversed trees.reverse nil

/-- The trees of a forest, added in reverse to those of a list. -/
def treesOnto : Forest α → List (Tree α) → List (Tree α)
  | nil, found => found
  | node label children siblings, found =>
      siblings.treesOnto ({ label := label, children := children } :: found)

/-- The trees of a forest, in order. -/
def trees (forest : Forest α) : List (Tree α) :=
  (forest.treesOnto []).reverse

/-- The trees of a forest, by structural recursion. -/
def roots : Forest α → List (Tree α)
  | nil => []
  | node label children siblings => { label := label, children := children } :: siblings.roots

theorem treesOnto_eq (forest : Forest α) (found : List (Tree α)) :
    forest.treesOnto found = forest.roots.reverse ++ found := by
  induction forest generalizing found with
  | nil => rfl
  | node label children siblings _ ih => simp [treesOnto, roots, ih]

theorem trees_eq (forest : Forest α) : forest.trees = forest.roots := by
  simp [trees, treesOnto_eq]

theorem prependReversed_append (first second : List (Tree α)) (forest : Forest α) :
    prependReversed (first ++ second) forest =
      prependReversed second (prependReversed first forest) := by
  induction first generalizing forest with
  | nil => rfl
  | cons tree rest ih => exact ih _

@[simp]
theorem ofTrees_nil : ofTrees ([] : List (Tree α)) = nil := rfl

@[simp]
theorem ofTrees_cons (tree : Tree α) (rest : List (Tree α)) :
    ofTrees (tree :: rest) = node tree.label tree.children (ofTrees rest) := by
  simp [ofTrees, prependReversed_append, prependReversed]

theorem ofTrees_trees (forest : Forest α) : ofTrees forest.trees = forest := by
  rw [trees_eq]
  induction forest with
  | nil => rfl
  | node label children siblings _ ih => simp [roots, ih]

theorem trees_ofTrees (list : List (Tree α)) : (ofTrees list).trees = list := by
  rw [trees_eq]
  induction list with
  | nil => rfl
  | cons tree rest ih => simp [roots, ih]

/-- The number of trees. -/
def rootCount (forest : Forest α) : Nat :=
  forest.trees.length

/-- The first trees of a forest. -/
def take (n : Nat) (forest : Forest α) : Forest α :=
  ofTrees (forest.trees.take n)

/-- Whether some tree of the forest has a label as asked at its root. -/
def anyRoot (p : α → Bool) : Forest α → Bool
  | nil => false
  | node label _ siblings => p label || siblings.anyRoot p

/-! ## Folding -/

/-- The value of a forest from the values of the forests below and beside its
first node, by structural recursion. -/
def foldFrom (down : σ → α → σ) (leaf : β) (join : σ → α → β → β → β) : σ → Forest α → β
  | _, nil => leaf
  | inherited, node label children siblings =>
      join inherited label (foldFrom down leaf join (down inherited label) children)
        (foldFrom down leaf join inherited siblings)

/-- Replaces the values of the parts below and beside a part by its own value. -/
def foldStep (leaf : β) (join : σ → α → β → β → β) (values : List β) :
    σ × Forest α → List β
  | (_, nil) => leaf :: values
  | (inherited, node label _ _) =>
      match values with
      | children :: siblings :: rest => join inherited label children siblings :: rest
      | _ => values

/-- The value of a forest, computed from its last part to its first. -/
def fold (down : σ → α → σ) (leaf : β) (join : σ → α → β → β → β) (inherited : σ)
    (forest : Forest α) : β :=
  ((reverseParts down inherited forest).foldl (foldStep leaf join) []).headD leaf

theorem foldr_foldStep (down : σ → α → σ) (leaf : β) (join : σ → α → β → β → β)
    (inherited : σ) (forest : Forest α) (values : List β) :
    (parts down inherited forest).foldr (fun part values => foldStep leaf join values part)
        values =
      foldFrom down leaf join inherited forest :: values := by
  induction forest generalizing inherited values with
  | nil => rfl
  | node label children siblings ihc ihs =>
      rw [parts, List.foldr_cons, List.foldr_append, ihs, ihc]
      rfl

theorem fold_eq (down : σ → α → σ) (leaf : β) (join : σ → α → β → β → β)
    (inherited : σ) (forest : Forest α) :
    fold down leaf join inherited forest = foldFrom down leaf join inherited forest := by
  rw [fold, reverseParts_eq, List.foldl_reverse, foldr_foldStep]
  rfl

end Forest

end Discussion
