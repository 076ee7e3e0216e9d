import Discussion.Forest.Basic
import Mathlib.Data.List.Basic
import Mathlib.Data.List.Infix

/-!
# Addresses in a forest

A node is named by its address: the index of its tree among the roots, then the
index of a child at every further level.  An address that extends another one
names a node below it, at any distance, so that statements about ancestors and
descendants are statements about prefixes and extensions.  Labels may repeat in a
forest; addresses do not.

The last section follows a value that is inherited along an address.  A forest
that is computed from another one of the same shape by `decorate` holds at every
address what the inherited value and the finished children make of the label.
-/

namespace Discussion

universe u v w

variable {α : Type u} {β : Type w} {σ : Type v}

/-- The tree at an address below a tree; the empty address names the tree itself. -/
def Tree.at? : Tree α → List Nat → Option (Tree α)
  | tree, [] => some tree
  | tree, i :: rest => tree.children.roots[i]?.bind fun child => child.at? rest

theorem Tree.at?_append (tree : Tree α) (address further : List Nat) :
    tree.at? (address ++ further) = (tree.at? address).bind fun found => found.at? further := by
  induction address generalizing tree with
  | nil => rfl
  | cons i rest ih => simp only [List.cons_append, Tree.at?, Option.bind_assoc, ih]

namespace Forest

/-- The tree at an address in a forest; the empty address names nothing. -/
def treeAt? (forest : Forest α) : List Nat → Option (Tree α)
  | [] => none
  | i :: rest => forest.roots[i]?.bind fun tree => tree.at? rest

/-- The labels on the way to an address, from the root down, without the label there. -/
def above : Forest α → List Nat → List α
  | node label children _, 0 :: i :: rest => label :: children.above (i :: rest)
  | node _ _ siblings, (n + 1) :: rest => siblings.above (n :: rest)
  | _, _ => []

@[simp]
theorem treeAt?_nil (address : List Nat) : (nil : Forest α).treeAt? address = none := by
  cases address <;> rfl

@[simp]
theorem treeAt?_empty (forest : Forest α) : forest.treeAt? [] = none := rfl

@[simp]
theorem treeAt?_first (label : α) (children siblings : Forest α) :
    (node label children siblings).treeAt? [0] =
      some { label := label, children := children } := rfl

@[simp]
theorem treeAt?_below (label : α) (children siblings : Forest α) (i : Nat) (rest : List Nat) :
    (node label children siblings).treeAt? (0 :: i :: rest) = children.treeAt? (i :: rest) := rfl

@[simp]
theorem treeAt?_beside (label : α) (children siblings : Forest α) (n : Nat) (rest : List Nat) :
    (node label children siblings).treeAt? ((n + 1) :: rest) = siblings.treeAt? (n :: rest) := rfl

@[simp]
theorem above_first (label : α) (children siblings : Forest α) :
    (node label children siblings).above [0] = [] := rfl

@[simp]
theorem above_below (label : α) (children siblings : Forest α) (i : Nat) (rest : List Nat) :
    (node label children siblings).above (0 :: i :: rest) =
      label :: children.above (i :: rest) := rfl

@[simp]
theorem above_beside (label : α) (children siblings : Forest α) (n : Nat) (rest : List Nat) :
    (node label children siblings).above ((n + 1) :: rest) = siblings.above (n :: rest) := by
  cases rest <;> rfl

theorem treeAt?_singleton (forest : Forest α) (i : Nat) :
    forest.treeAt? [i] = forest.roots[i]? := by
  simp [treeAt?, Tree.at?]

theorem above_singleton (forest : Forest α) (i : Nat) : forest.above [i] = [] := by
  induction forest generalizing i with
  | nil => rfl
  | node label children siblings _ ih =>
      match i with
      | 0 => rfl
      | n + 1 =>
          rw [above_beside]
          exact ih n

/-- Follows an address down to its node: the node is the first root, or lies below
it, or lies beside it. -/
@[elab_as_elim]
theorem treeAt?_induction
    {motive : ∀ (forest : Forest α) (address : List Nat) (tree : Tree α),
      forest.treeAt? address = some tree → Prop}
    (first : ∀ label children siblings,
      motive (node label children siblings) [0] { label := label, children := children } rfl)
    (below : ∀ label children siblings i rest tree
      (h : children.treeAt? (i :: rest) = some tree), motive children (i :: rest) tree h →
        motive (node label children siblings) (0 :: i :: rest) tree h)
    (beside : ∀ label children siblings n rest tree
      (h : siblings.treeAt? (n :: rest) = some tree), motive siblings (n :: rest) tree h →
        motive (node label children siblings) ((n + 1) :: rest) tree h)
    {forest : Forest α} {address : List Nat} {tree : Tree α}
    (h : forest.treeAt? address = some tree) :
    motive forest address tree h := by
  induction forest generalizing address with
  | nil => simp at h
  | node label children siblings ihc ihs =>
      match address, h with
      | [0], h =>
          obtain rfl : _ = tree := Option.some.inj h
          exact first label children siblings
      | 0 :: i :: rest, h =>
          have hbelow : children.treeAt? (i :: rest) = some tree := h
          exact below label children siblings i rest tree hbelow (ihc hbelow)
      | (n + 1) :: rest, h =>
          have hbeside : siblings.treeAt? (n :: rest) = some tree := h
          exact beside label children siblings n rest tree hbeside (ihs hbeside)

/-! ## Prefixes and extensions -/

theorem ne_nil_of_treeAt?
    {forest : Forest α} {address : List Nat} {tree : Tree α}
    (h : forest.treeAt? address = some tree) :
    address ≠ [] := by
  rintro rfl
  simp at h

theorem treeAt?_append
    (forest : Forest α) {address : List Nat} (hne : address ≠ []) (further : List Nat) :
    forest.treeAt? (address ++ further) =
      (forest.treeAt? address).bind fun tree => tree.at? further := by
  obtain ⟨i, rest, rfl⟩ := List.exists_cons_of_ne_nil hne
  simp only [List.cons_append, treeAt?, Tree.at?_append, Option.bind_assoc]

theorem treeAt?_append_of_eq_some
    {forest : Forest α} {address : List Nat} {tree : Tree α}
    (h : forest.treeAt? address = some tree) (further : List Nat) :
    forest.treeAt? (address ++ further) = tree.at? further := by
  rw [treeAt?_append forest (ne_nil_of_treeAt? h), h, Option.bind_some]

theorem exists_treeAt?_of_append
    {forest : Forest α} {address further : List Nat} {tree : Tree α} (hne : address ≠ [])
    (h : forest.treeAt? (address ++ further) = some tree) :
    ∃ ancestor, forest.treeAt? address = some ancestor := by
  rw [treeAt?_append forest hne] at h
  obtain ⟨ancestor, hancestor, _⟩ := Option.bind_eq_some_iff.mp h
  exact ⟨ancestor, hancestor⟩

theorem at?_eq_treeAt?
    (tree : Tree α) {further : List Nat} (hfurther : further ≠ []) :
    tree.at? further = tree.children.treeAt? further := by
  obtain ⟨i, rest, rfl⟩ := List.exists_cons_of_ne_nil hfurther
  rfl

theorem treeAt?_concat
    {forest : Forest α} {address : List Nat} {tree : Tree α}
    (h : forest.treeAt? address = some tree) (i : Nat) :
    forest.treeAt? (address ++ [i]) = tree.children.roots[i]? := by
  rw [treeAt?_append_of_eq_some h, at?_eq_treeAt? tree (by simp), treeAt?_singleton]

/-- What lies in a tree is its root, or lies among its children. -/
theorem exists_at?_iff {tree : Tree α} {P : List Nat → Tree α → Prop} :
    (∃ further below, tree.at? further = some below ∧ P further below) ↔
      P [] tree ∨ ∃ further below, tree.children.treeAt? further = some below ∧
        P further below := by
  constructor
  · rintro ⟨further, below, hbelow, hP⟩
    by_cases hfurther : further = []
    · subst hfurther
      obtain rfl : tree = below := Option.some.inj hbelow
      exact Or.inl hP
    · rw [at?_eq_treeAt? tree hfurther] at hbelow
      exact Or.inr ⟨further, below, hbelow, hP⟩
  · rintro (hP | ⟨further, below, hbelow, hP⟩)
    · exact ⟨[], tree, rfl, hP⟩
    · rw [← at?_eq_treeAt? tree (ne_nil_of_treeAt? hbelow)] at hbelow
      exact ⟨further, below, hbelow, hP⟩

theorem length_above
    {forest : Forest α} {address : List Nat} {tree : Tree α}
    (h : forest.treeAt? address = some tree) :
    (forest.above address).length + 1 = address.length := by
  induction h using treeAt?_induction with
  | first label children siblings => rfl
  | below label children siblings i rest tree _ ih => simpa using ih
  | beside label children siblings n rest tree _ ih => simpa using ih

theorem above_append
    {forest : Forest α} {address further : List Nat} {tree : Tree α}
    (h : forest.treeAt? address = some tree) (hfurther : further ≠ []) :
    forest.above (address ++ further) =
      forest.above address ++ tree.label :: tree.children.above further := by
  induction h using treeAt?_induction with
  | first label children siblings =>
      obtain ⟨i, rest, rfl⟩ := List.exists_cons_of_ne_nil hfurther
      rfl
  | below label children siblings i rest tree _ ih => simpa using ih
  | beside label children siblings n rest tree _ ih => simpa using ih

/-- The labels above a node are those at the proper prefixes of its address. -/
theorem mem_above_iff
    {forest : Forest α} {address : List Nat} {tree : Tree α}
    (h : forest.treeAt? address = some tree) {label : α} :
    label ∈ forest.above address ↔
      ∃ shorter further, shorter ++ further = address ∧ further ≠ [] ∧
        ∃ ancestor, forest.treeAt? shorter = some ancestor ∧ ancestor.label = label := by
  constructor
  · intro hmem
    induction h using treeAt?_induction with
    | first _ children siblings => simp at hmem
    | below top children siblings i rest tree _ ih =>
        rw [above_below, List.mem_cons] at hmem
        rcases hmem with rfl | hmem
        · exact ⟨[0], i :: rest, rfl, by simp, _, rfl, rfl⟩
        · obtain ⟨shorter, further, heq, hne, ancestor, hancestor, rfl⟩ := ih hmem
          cases shorter with
          | nil => simp at hancestor
          | cons j more =>
              exact ⟨0 :: j :: more, further, by rw [← heq]; rfl, hne, ancestor, hancestor, rfl⟩
    | beside top children siblings n rest tree _ ih =>
        rw [above_beside] at hmem
        obtain ⟨shorter, further, heq, hne, ancestor, hancestor, rfl⟩ := ih hmem
        cases shorter with
        | nil => simp at hancestor
        | cons j more =>
            obtain ⟨rfl, hmore⟩ := List.cons.inj heq
            exact ⟨(j + 1) :: more, further, by rw [← hmore]; rfl, hne, ancestor, hancestor, rfl⟩
  · rintro ⟨shorter, further, rfl, hne, ancestor, hancestor, rfl⟩
    rw [above_append hancestor hne]
    exact List.mem_append_right _ (List.mem_cons_self ..)

/-! ## The nodes of a forest -/

theorem anyRoot_iff {p : α → Bool} {forest : Forest α} :
    forest.anyRoot p = true ↔ ∃ tree ∈ forest.roots, p tree.label = true := by
  induction forest with
  | nil => simp [anyRoot, roots]
  | node label children siblings _ ihs => simp [anyRoot, roots, ihs]

@[simp]
theorem subtrees_nil : (nil : Forest α).subtrees = [] := by
  simp [subtrees, visits_eq, visitsFrom]

@[simp]
theorem subtrees_node (label : α) (children siblings : Forest α) :
    (node label children siblings).subtrees =
      { label := label, children := children } :: (children.subtrees ++ siblings.subtrees) := by
  simp [subtrees, visits_eq, visitsFrom]

@[simp]
theorem labels_nil : (nil : Forest α).labels = [] := by
  simp [labels]

@[simp]
theorem labels_node (label : α) (children siblings : Forest α) :
    (node label children siblings).labels = label :: (children.labels ++ siblings.labels) := by
  simp [labels]

/-- A node lies at the front of a forest, below its first tree's root, or beside it. -/
theorem exists_treeAt?_node
    {label : α} {children siblings : Forest α} {P : List Nat → Tree α → Prop} :
    (∃ address tree, (node label children siblings).treeAt? address = some tree ∧
        P address tree) ↔
      P [0] { label := label, children := children } ∨
        (∃ address tree, children.treeAt? address = some tree ∧ P (0 :: address) tree) ∨
          ∃ address tree, siblings.treeAt? address = some tree ∧
            P (address.modifyHead (· + 1)) tree := by
  constructor
  · rintro ⟨address, tree, h, hP⟩
    match address, h with
    | [0], h =>
        obtain rfl : _ = tree := Option.some.inj h
        exact Or.inl hP
    | 0 :: i :: rest, h => exact Or.inr (Or.inl ⟨i :: rest, tree, h, hP⟩)
    | (n + 1) :: rest, h => exact Or.inr (Or.inr ⟨n :: rest, tree, h, hP⟩)
  · rintro (hP | ⟨address, tree, h, hP⟩ | ⟨address, tree, h, hP⟩)
    · exact ⟨[0], _, rfl, hP⟩
    · cases address with
      | nil => simp at h
      | cons i rest => exact ⟨0 :: i :: rest, tree, h, hP⟩
    · cases address with
      | nil => simp at h
      | cons n rest => exact ⟨(n + 1) :: rest, tree, h, hP⟩

theorem mem_subtrees_iff {forest : Forest α} {tree : Tree α} :
    tree ∈ forest.subtrees ↔ ∃ address, forest.treeAt? address = some tree := by
  suffices h : tree ∈ forest.subtrees ↔
      ∃ address found, forest.treeAt? address = some found ∧ found = tree by simpa using h
  induction forest with
  | nil => simp
  | node label children siblings ihc ihs =>
      rw [exists_treeAt?_node, subtrees_node, List.mem_cons, List.mem_append, ihc, ihs,
        eq_comm]

theorem mem_labels_iff {forest : Forest α} {label : α} :
    label ∈ forest.labels ↔
      ∃ address tree, forest.treeAt? address = some tree ∧ tree.label = label := by
  constructor
  · intro hmem
    obtain ⟨tree, htree, rfl⟩ := List.mem_map.mp hmem
    obtain ⟨address, h⟩ := mem_subtrees_iff.mp htree
    exact ⟨address, tree, h, rfl⟩
  · rintro ⟨address, tree, h, rfl⟩
    exact List.mem_map.mpr ⟨tree, mem_subtrees_iff.mpr ⟨address, h⟩, rfl⟩

/-- What is inherited changes nothing about which nodes are visited, and in which order. -/
theorem map_snd_visits (down : σ → α → σ) (inherited : σ) (forest : Forest α) :
    (forest.visits down inherited).map (·.2) = forest.subtrees := by
  rw [visits_eq]
  induction forest generalizing inherited with
  | nil => simp [visitsFrom]
  | node label children siblings ihc ihs => simp [visitsFrom, ihc, ihs]

theorem map_label_rows (forest : Forest α) : forest.rows.map (·.2.2) = forest.labels := by
  rw [rows, List.map_map, labels, ← map_snd_visits, List.map_map]
  rfl

/-! ## Forests of the same shape -/

/-- The forest of the same shape with other labels. -/
def map (f : α → β) : Forest α → Forest β
  | nil => nil
  | node label children siblings => node (f label) (children.map f) (siblings.map f)

@[simp]
theorem anyRoot_map (f : α → β) (p : β → Bool) (forest : Forest α) :
    (forest.map f).anyRoot p = forest.anyRoot (p ∘ f) := by
  induction forest with
  | nil => rfl
  | node label children siblings _ ih => simp [map, anyRoot, ih]

theorem map_eq_self {f : α → α} (hf : ∀ label, f label = label) (forest : Forest α) :
    forest.map f = forest := by
  induction forest with
  | nil => rfl
  | node label children siblings ihc ihs => rw [map, hf, ihc, ihs]

theorem labels_map (f : α → β) (forest : Forest α) :
    (forest.map f).labels = forest.labels.map f := by
  induction forest with
  | nil => simp [map]
  | node label children siblings ihc ihs => simp [map, ihc, ihs]

/-- The forest of the same shape in which every label is made from what is
inherited there, the old label and the finished children. -/
def decorate (down : σ → α → σ) (make : σ → α → Forest β → β) : σ → Forest α → Forest β :=
  foldFrom down nil fun inherited label children siblings =>
    node (make inherited label children) children siblings

theorem map_decorate
    {γ : Type u} {down : σ → α → σ} {make : σ → α → Forest β → β}
    {f : β → γ} {g : α → γ}
    (hmake : ∀ inherited label children, f (make inherited label children) = g label)
    (inherited : σ) (forest : Forest α) :
    (decorate down make inherited forest).map f = forest.map g := by
  induction forest generalizing inherited with
  | nil => rfl
  | node label children siblings ihc ihs =>
      change node _ ((decorate down make _ children).map f)
        ((decorate down make _ siblings).map f) = _
      rw [ihc, ihs, hmake]
      rfl

theorem treeAt?_decorate
    (down : σ → α → σ) (make : σ → α → Forest β → β) (inherited : σ)
    (forest : Forest α) (address : List Nat) :
    (decorate down make inherited forest).treeAt? address =
      (forest.treeAt? address).map fun tree =>
        let here := (forest.above address).foldl down inherited
        let children := decorate down make (down here tree.label) tree.children
        { label := make here tree.label children, children := children } := by
  induction forest generalizing inherited address with
  | nil => simp [decorate, foldFrom]
  | node label children siblings ihc ihs =>
      match address with
      | [] => rfl
      | [0] => rfl
      | 0 :: i :: rest => exact ihc (down inherited label) (i :: rest)
      | (n + 1) :: rest =>
          rw [above_beside]
          exact ihs inherited (n :: rest)

end Forest

end Discussion
