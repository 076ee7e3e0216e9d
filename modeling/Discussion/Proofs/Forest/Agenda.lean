import Mathlib.Algebra.Ring.Nat
import Discussion.Proofs.Forest.Growth

/-!
# Visiting a forest node by node

A forest is visited with an agenda, a stack of the trees that wait.  The next tree is taken from
the top and its children come in its place, the first child on top.  What is left to visit is the
preorder of the trees on the agenda, one after the other, and every visit takes the first node of
that list away.  So an agenda comes to its end whatever the depth of the forest, and visiting,
searching and counting agree with recursion.

Where only the number of nodes matters, children may come in their own order, so that the last
child is on top.  The nodes are then met in another order, but none is met twice or left out.
-/

namespace Discussion

universe u

variable {α : Type u}

/-- The trees of a forest at all levels in preorder, by structural recursion. -/
def Forest.preorder : Forest α → List (Tree α)
  | nil => []
  | node label children siblings =>
      { label := label, children := children } :: (children.preorder ++ siblings.preorder)

/-- A tree and the trees below it at all levels in preorder. -/
def Tree.preorder (tree : Tree α) : List (Tree α) :=
  tree :: tree.children.preorder

namespace Forest

theorem subtrees_eq_preorder (forest : Forest α) : forest.subtrees = forest.preorder := by
  induction forest with
  | nil => exact subtrees_nil
  | node label children siblings ihc ihs => rw [subtrees_node, ihc, ihs, preorder]

theorem preorder_eq_flatMap (forest : Forest α) :
    forest.preorder = forest.trees.flatMap Tree.preorder := by
  rw [← subtrees_eq_preorder, subtrees_eq, trees_eq]
  refine List.flatMap_congr fun tree _ => ?_
  rw [subtrees_eq_preorder, Tree.preorder]

end Forest

/-- The trees that wait to be visited, the next one first. -/
abbrev Agenda (α : Type u) := List (Tree α)

namespace Agenda

/-- Puts trees on an agenda one after the other, so that the last of them is the next one. -/
def put (trees : List (Tree α)) (agenda : Agenda α) : Agenda α :=
  trees.foldl (fun agenda tree => tree :: agenda) agenda

/-- The agenda with the roots of a forest, the first root next. -/
def ofForest (forest : Forest α) : Agenda α :=
  put forest.trees.reverse []

/-- Visits the next tree: what is visited, and the agenda with its children in its place. -/
def visit? : Agenda α → Option (Tree α × Agenda α)
  | [] => none
  | tree :: rest => some (tree, put tree.children.trees.reverse rest)

/-- What is left to visit. -/
def pending (agenda : Agenda α) : List (Tree α) :=
  agenda.flatMap Tree.preorder

theorem put_eq (trees : List (Tree α)) (agenda : Agenda α) :
    put trees agenda = trees.reverse ++ agenda := by
  rw [put, List.foldl_flip_cons_eq_append, List.map_id']

theorem pending_put (trees : List (Tree α)) (agenda : Agenda α) :
    pending (put trees agenda) = trees.reverse.flatMap Tree.preorder ++ pending agenda := by
  rw [pending, put_eq, List.flatMap_append, pending]

theorem pending_ofForest (forest : Forest α) : pending (ofForest forest) = forest.preorder := by
  rw [ofForest, pending_put, List.reverse_reverse, Forest.preorder_eq_flatMap]
  exact List.append_nil _

/-! ## Visiting -/

theorem pending_of_visit?_eq_none {agenda : Agenda α} (h : visit? agenda = none) :
    pending agenda = [] := by
  cases agenda with
  | nil => rfl
  | cons tree rest => cases h

/-- A visit takes the first node of what is left to visit away. -/
theorem pending_of_visit?
    {agenda rest : Agenda α} {tree : Tree α} (h : visit? agenda = some (tree, rest)) :
    pending agenda = tree :: pending rest := by
  cases agenda with
  | nil => cases h
  | cons top others =>
      obtain ⟨rfl, rfl⟩ := Prod.mk.inj (Option.some.inj h)
      rw [pending_put, List.reverse_reverse, ← Forest.preorder_eq_flatMap, pending,
        List.flatMap_cons, Tree.preorder]
      rfl

/-- Visits one tree after the other until none is left.  What is pending gets shorter each time. -/
def visitAll (agenda : Agenda α) : List (Tree α) :=
  match _ : visit? agenda with
  | none => []
  | some (tree, rest) => tree :: visitAll rest
termination_by (pending agenda).length
decreasing_by simp [pending_of_visit? ‹_›]

/-- Visits one tree after the other until one is as asked. -/
def search (p : Tree α → Bool) (agenda : Agenda α) : Option (Tree α) :=
  match _ : visit? agenda with
  | none => none
  | some (tree, rest) => if p tree then some tree else search p rest
termination_by (pending agenda).length
decreasing_by simp [pending_of_visit? ‹_›]

theorem visitAll_eq (agenda : Agenda α) : visitAll agenda = pending agenda := by
  fun_induction visitAll agenda with
  | case1 agenda h => exact (pending_of_visit?_eq_none h).symm
  | case2 agenda tree rest h ih => rw [ih, pending_of_visit? h]

theorem search_eq (p : Tree α → Bool) (agenda : Agenda α) :
    search p agenda = (pending agenda).find? p := by
  fun_induction search p agenda with
  | case1 agenda h => rw [pending_of_visit?_eq_none h, List.find?_nil]
  | case2 agenda tree rest h hp =>
      rw [pending_of_visit? h, List.find?_cons_of_pos hp]
  | case3 agenda tree rest h hp ih =>
      rw [pending_of_visit? h, List.find?_cons_of_neg hp, ih]

/-! ## Counting -/

theorem length_pending_put (trees : List (Tree α)) (agenda : Agenda α) :
    (pending (put trees agenda)).length =
      (trees.flatMap Tree.preorder).length + (pending agenda).length := by
  rw [pending_put, List.length_append, (trees.reverse_perm.flatMap_right _).length_eq]

/-- Adds the number of the trees on an agenda and below to what was counted before.  Children
come on the agenda in their own order, so that the last one is met first. -/
def countOnto (counted : Nat) : Agenda α → Nat
  | [] => counted
  | tree :: rest => countOnto (counted + 1) (put tree.children.trees rest)
termination_by agenda => (pending agenda).length
decreasing_by
  rw [length_pending_put, ← Forest.preorder_eq_flatMap]
  simp [pending, Tree.preorder]

/-- The number of a tree and the trees below it at all levels. -/
def count (tree : Tree α) : Nat :=
  countOnto 0 [tree]

theorem countOnto_eq (counted : Nat) (agenda : Agenda α) :
    countOnto counted agenda = counted + (pending agenda).length := by
  fun_induction countOnto counted agenda with
  | case1 counted => rfl
  | case2 counted tree rest ih =>
      rw [ih, length_pending_put, ← Forest.preorder_eq_flatMap, pending, pending,
        List.flatMap_cons, List.length_append, Tree.preorder, List.length_cons]
      omega

theorem count_eq (tree : Tree α) : count tree = tree.preorder.length := by
  rw [count, countOnto_eq, pending, List.flatMap_singleton, Nat.zero_add]

theorem sum_map_count (forest : Forest α) :
    (forest.trees.map count).sum = forest.preorder.length := by
  rw [Forest.preorder_eq_flatMap, List.length_flatMap]
  congr 1
  exact List.map_congr_left fun tree _ => count_eq tree

end Agenda

end Discussion
