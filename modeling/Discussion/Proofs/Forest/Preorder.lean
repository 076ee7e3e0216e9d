import Discussion.Proofs.Forest.Address
import Mathlib.Data.List.Chain
import Mathlib.Data.List.Forall2

/-!
# Preorder

In preorder every node stands before its children and its children before its later siblings.
That is the order of the addresses as lists of numbers, an address before those that extend it.
A row tells how deep a node stands and below whom.  The rows of the children of a node are those
that follow its own row as long as they tell of nodes that stand deeper, so a forest is determined
by its rows, even without the parents, and the parent of a node has the last row before it that is
one step less deep.
-/

namespace Discussion

universe u

variable {α : Type u}

namespace Forest

/-! ## Addresses in preorder -/

/-- The addresses of the nodes of a forest in preorder. -/
def addresses : Forest α → List (List Nat)
  | nil => []
  | node _ children siblings =>
      [0] :: (children.addresses.map (0 :: ·) ++
        siblings.addresses.map (List.modifyHead (· + 1)))

theorem treeAt?_zero_cons {address : List Nat} (h : address ≠ []) (label : α)
    (children siblings : Forest α) :
    (node label children siblings).treeAt? (0 :: address) = children.treeAt? address := by
  obtain ⟨i, rest, rfl⟩ := List.exists_cons_of_ne_nil h
  rfl

theorem treeAt?_modifyHead {address : List Nat} (h : address ≠ []) (label : α)
    (children siblings : Forest α) :
    (node label children siblings).treeAt? (address.modifyHead (· + 1)) =
      siblings.treeAt? address := by
  obtain ⟨i, rest, rfl⟩ := List.exists_cons_of_ne_nil h
  rfl

theorem above_zero_cons {address : List Nat} (h : address ≠ []) (label : α)
    (children siblings : Forest α) :
    (node label children siblings).above (0 :: address) = label :: children.above address := by
  obtain ⟨i, rest, rfl⟩ := List.exists_cons_of_ne_nil h
  rfl

theorem above_modifyHead {address : List Nat} (h : address ≠ []) (label : α)
    (children siblings : Forest α) :
    (node label children siblings).above (address.modifyHead (· + 1)) =
      siblings.above address := by
  obtain ⟨i, rest, rfl⟩ := List.exists_cons_of_ne_nil h
  exact above_beside label children siblings i rest

theorem ne_nil_of_mem_addresses {forest : Forest α} {address : List Nat}
    (h : address ∈ forest.addresses) : address ≠ [] := by
  rintro rfl
  cases forest with
  | nil => cases h
  | node label children siblings =>
      rw [addresses, List.mem_cons, List.mem_append, List.mem_map, List.mem_map] at h
      rcases h with h | ⟨below, -, h⟩ | ⟨beside, hmem, h⟩
      · cases h
      · cases h
      · rw [List.modifyHead_eq_nil_iff] at h
        exact ne_nil_of_mem_addresses hmem h

/-- In preorder the trees of a forest are those at its addresses, one after the other. -/
theorem map_treeAt?_addresses (forest : Forest α) :
    forest.addresses.map forest.treeAt? = forest.subtrees.map some := by
  induction forest with
  | nil => simp [addresses]
  | node label children siblings ihc ihs =>
      have hbelow : (children.addresses.map (0 :: ·)).map
          (node label children siblings).treeAt? = children.subtrees.map some := by
        rw [← ihc, List.map_map]
        refine List.map_congr_left fun address haddress => ?_
        exact treeAt?_zero_cons (ne_nil_of_mem_addresses haddress) label children siblings
      have hbeside : (siblings.addresses.map (List.modifyHead (· + 1))).map
          (node label children siblings).treeAt? = siblings.subtrees.map some := by
        rw [← ihs, List.map_map]
        refine List.map_congr_left fun address haddress => ?_
        exact treeAt?_modifyHead (ne_nil_of_mem_addresses haddress) label children siblings
      rw [addresses, List.map_cons, List.map_append, hbelow, hbeside, treeAt?_first,
        subtrees_node, List.map_cons, List.map_append]

/-- Whether addresses are those of all nodes of a forest, in preorder. -/
structure IsPreorder (forest : Forest α) (addresses : List (List Nat)) : Prop where
  mem_iff : ∀ address, address ∈ addresses ↔ ∃ tree, forest.treeAt? address = some tree
  increasing : addresses.Pairwise (· < ·)

theorem exists_treeAt?_of_mem_addresses {forest : Forest α} {address : List Nat}
    (h : address ∈ forest.addresses) : ∃ tree, forest.treeAt? address = some tree := by
  have hmem : forest.treeAt? address ∈ forest.addresses.map forest.treeAt? :=
    List.mem_map_of_mem h
  rw [map_treeAt?_addresses] at hmem
  obtain ⟨tree, -, htree⟩ := List.mem_map.mp hmem
  exact ⟨tree, htree.symm⟩

theorem mem_addresses_of_treeAt? {forest : Forest α} {address : List Nat} {tree : Tree α}
    (h : forest.treeAt? address = some tree) : address ∈ forest.addresses := by
  induction h using treeAt?_induction with
  | first label children siblings => exact List.mem_cons_self
  | below label children siblings i rest tree _ ih =>
      refine List.mem_cons_of_mem _ (List.mem_append_left _ ?_)
      exact List.mem_map_of_mem ih
  | beside label children siblings n rest tree _ ih =>
      refine List.mem_cons_of_mem _ (List.mem_append_right _ ?_)
      exact List.mem_map_of_mem (f := List.modifyHead (· + 1)) ih

theorem pairwise_lt_addresses (forest : Forest α) : forest.addresses.Pairwise (· < ·) := by
  induction forest with
  | nil => exact List.Pairwise.nil
  | node label children siblings ihc ihs =>
      have hbelow : (children.addresses.map (0 :: ·)).Pairwise (· < ·) :=
        List.pairwise_map.mpr (ihc.imp fun hlt => List.cons_lt_cons_self.mpr hlt)
      have hbeside : (siblings.addresses.map (List.modifyHead (· + 1))).Pairwise (· < ·) := by
        rw [List.pairwise_map]
        refine ihs.imp_of_mem fun {first second} hfirst hsecond hlt => ?_
        obtain ⟨i, rest, rfl⟩ := List.exists_cons_of_ne_nil (ne_nil_of_mem_addresses hfirst)
        obtain ⟨j, others, rfl⟩ := List.exists_cons_of_ne_nil (ne_nil_of_mem_addresses hsecond)
        rw [List.cons_lt_cons_iff] at hlt
        rw [List.modifyHead_cons, List.modifyHead_cons, List.cons_lt_cons_iff]
        rcases hlt with hless | ⟨rfl, hrest⟩
        · exact Or.inl (Nat.succ_lt_succ hless)
        · exact Or.inr ⟨rfl, hrest⟩
      have hapart : ∀ below ∈ children.addresses.map (0 :: ·),
          ∀ beside ∈ siblings.addresses.map (List.modifyHead (· + 1)), below < beside := by
        intro below hmem beside hmem'
        obtain ⟨inner, -, rfl⟩ := List.mem_map.mp hmem
        obtain ⟨outer, houter, rfl⟩ := List.mem_map.mp hmem'
        obtain ⟨i, rest, rfl⟩ := List.exists_cons_of_ne_nil (ne_nil_of_mem_addresses houter)
        rw [List.modifyHead_cons, List.cons_lt_cons_iff]
        exact Or.inl (Nat.succ_pos i)
      rw [addresses, List.pairwise_cons, List.pairwise_append]
      refine ⟨fun address haddress => ?_, hbelow, hbeside, hapart⟩
      rcases List.mem_append.mp haddress with hmem | hmem
      · obtain ⟨inner, hinner, rfl⟩ := List.mem_map.mp hmem
        obtain ⟨i, rest, rfl⟩ := List.exists_cons_of_ne_nil (ne_nil_of_mem_addresses hinner)
        exact List.cons_lt_cons_self.mpr (List.nil_lt_cons i rest)
      · obtain ⟨outer, houter, rfl⟩ := List.mem_map.mp hmem
        obtain ⟨i, rest, rfl⟩ := List.exists_cons_of_ne_nil (ne_nil_of_mem_addresses houter)
        rw [List.modifyHead_cons, List.cons_lt_cons_iff]
        exact Or.inl (Nat.succ_pos i)

theorem isPreorder_addresses (forest : Forest α) : forest.IsPreorder forest.addresses :=
  ⟨fun _ => ⟨exists_treeAt?_of_mem_addresses, fun ⟨_, htree⟩ => mem_addresses_of_treeAt? htree⟩,
    forest.pairwise_lt_addresses⟩

/-! ## Rows -/

/-- The rows of a forest that lies at a depth, below a parent. -/
def rowsFrom : Nat → Option α → Forest α → List (Nat × Option α × α)
  | _, _, nil => []
  | depth, parent, node label children siblings =>
      (depth, parent, label) ::
        (rowsFrom (depth + 1) (some label) children ++ rowsFrom depth parent siblings)

/-- The visits to a forest that lies at a depth, below a parent, as rows. -/
theorem map_visitsFrom (depth : Nat) (parent : Option α) (forest : Forest α) :
    (visitsFrom (fun place label => (place.1 + 1, some label)) (depth, parent) forest).map
      (fun visit => (visit.1.1, visit.1.2, visit.2.label)) = rowsFrom depth parent forest := by
  induction forest generalizing depth parent with
  | nil => rfl
  | node label children siblings ihc ihs =>
      rw [visitsFrom, List.map_cons, List.map_append, ihc, ihs, rowsFrom]

theorem rows_eq (forest : Forest α) : forest.rows = rowsFrom 0 none forest := by
  rw [rows, visits_eq]
  exact map_visitsFrom 0 none forest

/-- The row of every address: the node's depth, the label of its parent and its own. -/
theorem forall₂_rowsFrom (depth : Nat) (parent : Option α) (forest : Forest α) :
    List.Forall₂ (fun address row => ∃ tree, forest.treeAt? address = some tree ∧
      row = (depth + (forest.above address).length,
        (forest.above address).getLast?.or parent, tree.label))
      forest.addresses (rowsFrom depth parent forest) := by
  induction forest generalizing depth parent with
  | nil => exact List.Forall₂.nil
  | node label children siblings ihc ihs =>
      refine List.Forall₂.cons ⟨_, rfl, rfl⟩ (List.rel_append ?_ ?_)
      · rw [List.forall₂_map_left_iff]
        refine (ihc (depth + 1) (some label)).imp fun address row => ?_
        rintro ⟨tree, htree, rfl⟩
        have hne := ne_nil_of_treeAt? htree
        refine ⟨tree, (treeAt?_zero_cons hne label children siblings).trans htree, ?_⟩
        rw [above_zero_cons hne, List.length_cons, List.getLast?_cons, Nat.add_right_comm,
          Nat.add_assoc]
        cases (children.above address).getLast? <;> rfl
      · rw [List.forall₂_map_left_iff]
        refine (ihs depth parent).imp fun address row => ?_
        rintro ⟨tree, htree, rfl⟩
        have hne := ne_nil_of_treeAt? htree
        refine ⟨tree, (treeAt?_modifyHead hne label children siblings).trans htree, ?_⟩
        rw [above_modifyHead hne]

/-! ## Depths -/

theorem le_of_mem_rowsFrom {depth : Nat} {parent : Option α} {forest : Forest α}
    {row : Nat × Option α × α} (h : row ∈ rowsFrom depth parent forest) : depth ≤ row.1 := by
  induction forest generalizing depth parent with
  | nil => cases h
  | node label children siblings ihc ihs =>
      rw [rowsFrom, List.mem_cons, List.mem_append] at h
      rcases h with rfl | hbelow | hbeside
      · exact Nat.le_refl depth
      · exact Nat.le_of_succ_le (ihc hbelow)
      · exact ihs hbeside

theorem head?_rowsFrom {depth : Nat} {parent : Option α} {forest : Forest α}
    {row : Nat × Option α × α} (h : row ∈ (rowsFrom depth parent forest).head?) :
    row.1 = depth := by
  cases forest with
  | nil => cases h
  | node label children siblings =>
      obtain rfl := Option.some.inj h
      rfl

/-- From one row to the next the depth grows by one step at most. -/
theorem isChain_rowsFrom (depth : Nat) (parent : Option α) (forest : Forest α) :
    (rowsFrom depth parent forest).IsChain fun row next => next.1 ≤ row.1 + 1 := by
  induction forest generalizing depth parent with
  | nil => exact List.IsChain.nil
  | node label children siblings ihc ihs =>
      have hjoint : ∀ row ∈ (rowsFrom (depth + 1) (some label) children).getLast?,
          ∀ next ∈ (rowsFrom depth parent siblings).head?, next.1 ≤ row.1 + 1 := by
        intro row hrow next hnext
        have hdeep := le_of_mem_rowsFrom (List.mem_of_getLast? hrow)
        have hlevel := head?_rowsFrom hnext
        omega
      rw [rowsFrom, List.isChain_cons]
      refine ⟨fun next hnext => ?_, (ihc _ _).append (ihs _ _) hjoint⟩
      rw [List.head?_append, Option.mem_def, Option.or_eq_some_iff] at hnext
      rcases hnext with hbelow | ⟨-, hbeside⟩
      · exact Nat.le_of_eq (head?_rowsFrom hbelow)
      · exact Nat.le_succ_of_le (Nat.le_of_eq (head?_rowsFrom hbeside))

/-- A row tells of a root of the forest, or the last row before it that is one step less deep
tells of the parent. -/
theorem parent_of_rowsFrom {depth : Nat} {parent : Option α} {forest : Forest α}
    {before after : List (Nat × Option α × α)} {row : Nat × Option α × α}
    (h : rowsFrom depth parent forest = before ++ row :: after) :
    row.1 = depth ∧ row.2.1 = parent ∨
      ∃ earlier top between, before = earlier ++ top :: between ∧ row.1 = top.1 + 1 ∧
        row.2.1 = some top.2.2 ∧ ∀ other ∈ between, row.1 ≤ other.1 := by
  induction forest generalizing depth parent before after with
  | nil => simp [rowsFrom] at h
  | node label children siblings ihc ihs =>
      rw [rowsFrom, List.cons_eq_append_iff] at h
      rcases h with ⟨-, hfirst⟩ | ⟨rest, rfl, h⟩
      · obtain ⟨rfl, -⟩ := List.cons.inj hfirst
        exact Or.inl ⟨rfl, rfl⟩
      -- The row tells of a sibling, or of a node below the first root.
      have hbeside : ∀ passed,
          rowsFrom depth parent siblings = passed ++ row :: after →
          rest = rowsFrom (depth + 1) (some label) children ++ passed →
          row.1 = depth ∧ row.2.1 = parent ∨
            ∃ earlier top between, (depth, parent, label) :: rest = earlier ++ top :: between ∧
              row.1 = top.1 + 1 ∧ row.2.1 = some top.2.2 ∧ ∀ other ∈ between, row.1 ≤ other.1 := by
        rintro passed hsplit rfl
        rcases ihs hsplit with hroot | ⟨earlier, top, between, rfl, hdepth, hparent, hdeep⟩
        · exact Or.inl hroot
        · right
          refine ⟨(depth, parent, label) ::
            (rowsFrom (depth + 1) (some label) children ++ earlier), top, between, ?_,
            hdepth, hparent, hdeep⟩
          rw [List.cons_append, List.append_assoc]
      rcases List.append_eq_append_iff.mp h with ⟨passed, hrest, hsplit⟩ | ⟨left, hsplit, hleft⟩
      · exact hbeside passed hsplit hrest
      · rcases List.cons_eq_append_iff.mp hleft with ⟨rfl, hnext⟩ | ⟨left, rfl, -⟩
        · rw [List.append_nil] at hsplit
          exact hbeside [] hnext (by rw [hsplit, List.append_nil])
        · right
          rcases ihc hsplit with ⟨hdepth, hparent⟩ | ⟨earlier, top, between, rfl, hbelow⟩
          · refine ⟨[], (depth, parent, label), rest, rfl, hdepth, hparent, fun other hother => ?_⟩
            have hmem : other ∈ rowsFrom (depth + 1) (some label) children := by
              rw [hsplit]
              exact List.mem_append_left _ hother
            rw [hdepth]
            exact le_of_mem_rowsFrom hmem
          · exact ⟨(depth, parent, label) :: earlier, top, between, rfl, hbelow⟩

/-! ## A forest from its rows -/

/-- The depth and the label in a row, without the parent. -/
def outline (row : Nat × Option α × α) : Nat × α :=
  (row.1, row.2.2)

/-- The rows of the children of the first root follow its row, up to the next that is not deeper. -/
theorem takeWhile_rowsFrom (depth : Nat) (parent below : Option α) (children siblings : Forest α) :
    ((rowsFrom (depth + 1) below children ++ rowsFrom depth parent siblings).map outline).takeWhile
      (fun entry => decide (depth < entry.1)) =
        (rowsFrom (depth + 1) below children).map outline := by
  have hdeep : ∀ entry ∈ (rowsFrom (depth + 1) below children).map outline,
      decide (depth < entry.1) = true := by
    intro entry hentry
    obtain ⟨row, hrow, rfl⟩ := List.mem_map.mp hentry
    exact decide_eq_true (le_of_mem_rowsFrom hrow)
  have hstop : ((rowsFrom depth parent siblings).map outline).takeWhile
      (fun entry => decide (depth < entry.1)) = [] := by
    cases siblings with
    | nil => rfl
    | node next _ _ => simp [rowsFrom, outline]
  rw [List.map_append, List.takeWhile_append_of_pos hdeep, hstop, List.append_nil]

theorem eq_of_outline_rowsFrom {depth : Nat} {parent parent' : Option α} {forest other : Forest α}
    (h : (rowsFrom depth parent forest).map outline = (rowsFrom depth parent' other).map outline) :
    forest = other := by
  induction forest generalizing depth parent parent' other with
  | nil =>
      cases other with
      | nil => rfl
      | node _ _ _ => cases h
  | node label children siblings ihc ihs =>
      cases other with
      | nil => cases h
      | node label' children' siblings' =>
          rw [rowsFrom, rowsFrom, List.map_cons, List.map_cons] at h
          obtain ⟨hrow, hrest⟩ := List.cons.inj h
          obtain rfl : label = label' := (Prod.mk.inj hrow).2
          have hbelow : (rowsFrom (depth + 1) (some label) children).map outline =
              (rowsFrom (depth + 1) (some label) children').map outline := by
            rw [← takeWhile_rowsFrom depth parent (some label) children siblings, hrest,
              takeWhile_rowsFrom]
          rw [List.map_append, List.map_append, hbelow] at hrest
          rw [ihc hbelow, ihs (List.append_cancel_left hrest)]

end Forest

end Discussion
