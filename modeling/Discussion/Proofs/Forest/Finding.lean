import Discussion.Proofs.Forest.Agenda
import Discussion.Proofs.Forest.Preorder

/-!
# Finding a node

Labels may repeat in a forest, so what is found for a label is the first node that has it.  First
means first in preorder, and that is the order of the addresses: no node at a smaller address is
as asked.  A node is found at one address only, which makes it possible to say that a node was
found in the same place in another forest.
-/

namespace Discussion

universe u

variable {α : Type u}

/-- Whether an answer is the first element of a list that has a property, or is missing because
no element has it. -/
inductive IsFirst (P : α → Prop) : List α → Option α → Prop
  | missing {list : List α} (hnone : ∀ a ∈ list, ¬P a) : IsFirst P list none
  | found {before after : List α} {a : α} (ha : P a) (hbefore : ∀ b ∈ before, ¬P b) :
      IsFirst P (before ++ a :: after) (some a)

theorem isFirst_find? (p : α → Bool) (list : List α) :
    IsFirst (fun a => p a = true) list (list.find? p) := by
  cases hfind : list.find? p with
  | none => exact .missing (List.find?_eq_none.mp hfind)
  | some a =>
      obtain ⟨ha, before, after, rfl, hbefore⟩ := List.find?_eq_some_iff_append.mp hfind
      refine .found ha fun b hb => ?_
      simpa using hbefore b hb

namespace Forest

/-- Whether what is asked of a forest is answered as recursion would: which nodes it has and in
which order, how many they are, and which of them is the first with some label. -/
structure IsReadInPreorder (forest : Forest α) : Prop where
  subtrees_eq : forest.subtrees = forest.preorder
  visitAll_eq : Agenda.visitAll (Agenda.ofForest forest) = forest.preorder
  count_eq : forest.count = forest.preorder.length
  sum_count_eq : (forest.trees.map Agenda.count).sum = forest.preorder.length
  tree_count_eq : ∀ tree ∈ forest.preorder, Agenda.count tree = tree.preorder.length
  first : ∀ p : α → Bool,
    IsFirst (fun tree => p tree.label = true) forest.preorder (forest.find? p)
  search_eq : ∀ p : α → Bool,
    Agenda.search (fun tree => p tree.label) (Agenda.ofForest forest) = forest.find? p

theorem isReadInPreorder (forest : Forest α) : forest.IsReadInPreorder where
  subtrees_eq := forest.subtrees_eq_preorder
  visitAll_eq := by rw [Agenda.visitAll_eq, Agenda.pending_ofForest]
  count_eq := by rw [count, subtrees_eq_preorder]
  sum_count_eq := Agenda.sum_map_count forest
  tree_count_eq tree _ := Agenda.count_eq tree
  first p := by
    rw [find?, subtrees_eq_preorder]
    exact isFirst_find? (fun tree : Tree α => p tree.label) forest.preorder
  search_eq p := by
    rw [Agenda.search_eq, Agenda.pending_ofForest, find?, subtrees_eq_preorder]

/-! ## The address of what is found -/

/-- Whether the tree at an address is the first in preorder whose label is as asked. -/
structure IsFirstAt (forest : Forest α) (P : α → Prop) (address : List Nat) (tree : Tree α) :
    Prop where
  treeAt?_eq : forest.treeAt? address = some tree
  holds : P tree.label
  none_before : ∀ earlier other, earlier < address → forest.treeAt? earlier = some other →
    ¬P other.label

variable {forest : Forest α} {P : α → Prop} {p : α → Bool} {tree : Tree α}

theorem IsFirstAt.unique
    {address address' : List Nat} {tree' : Tree α} (h : forest.IsFirstAt P address tree)
    (h' : forest.IsFirstAt P address' tree') : address = address' ∧ tree = tree' := by
  rcases lt_trichotomy address address' with hlt | rfl | hlt
  · exact absurd h.holds (h'.none_before address tree hlt h.treeAt?_eq)
  · exact ⟨rfl, Option.some.inj (h.treeAt?_eq.symm.trans h'.treeAt?_eq)⟩
  · exact absurd h'.holds (h.none_before address' tree' hlt h'.treeAt?_eq)

/-- What is found in a forest has an address, and nothing before it is as asked. -/
theorem exists_isFirstAt_of_find? (h : forest.find? p = some tree) :
    ∃ address, forest.IsFirstAt (fun label => p label = true) address tree := by
  obtain ⟨hp, before, after, hsplit, hbefore⟩ := List.find?_eq_some_iff_append.mp h
  have hmap := forest.map_treeAt?_addresses
  rw [hsplit, List.map_append] at hmap
  obtain ⟨passed, rest, haddresses, hpassed, hrest⟩ := List.map_eq_append_iff.mp hmap
  obtain ⟨address, left, rfl, haddress, -⟩ := List.map_eq_cons_iff.mp hrest
  have hincreasing := forest.pairwise_lt_addresses
  rw [haddresses] at hincreasing
  refine ⟨address, haddress, hp, fun earlier other hlt hother => ?_⟩
  -- Addresses increase, so a smaller one was passed before.
  have hearlier : earlier ∈ passed := by
    have hmem := mem_addresses_of_treeAt? hother
    rw [haddresses, List.mem_append, List.mem_cons] at hmem
    rcases hmem with hpast | rfl | hlater
    · exact hpast
    · exact absurd hlt (lt_irrefl earlier)
    · have hrest := List.pairwise_cons.mp (List.pairwise_append.mp hincreasing).2.1
      exact absurd hlt (lt_asymm (hrest.1 earlier hlater))
  have hmem : some other ∈ before.map some := by
    rw [← hpassed, ← hother]
    exact List.mem_map_of_mem hearlier
  simpa using hbefore other (by simpa using hmem)

theorem find?_eq_some_iff :
    forest.find? p = some tree ↔
      ∃ address, forest.IsFirstAt (fun label => p label = true) address tree := by
  refine ⟨exists_isFirstAt_of_find?, fun ⟨address, hfirst⟩ => ?_⟩
  cases hfind : forest.find? p with
  | none =>
      have hmem := mem_subtrees_iff.mpr ⟨address, hfirst.treeAt?_eq⟩
      exact absurd hfirst.holds (List.find?_eq_none.mp hfind tree hmem)
  | some other =>
      obtain ⟨address', hother⟩ := exists_isFirstAt_of_find? hfind
      rw [(hfirst.unique hother).2]

theorem find?_eq_none_iff :
    forest.find? p = none ↔
      ∀ address tree, forest.treeAt? address = some tree → p tree.label = false := by
  rw [find?, List.find?_eq_none]
  constructor
  · intro h address tree htree
    simpa using h tree (mem_subtrees_iff.mpr ⟨address, htree⟩)
  · intro h tree hmem
    obtain ⟨address, htree⟩ := mem_subtrees_iff.mp hmem
    simpa using h address tree htree

end Forest

end Discussion
