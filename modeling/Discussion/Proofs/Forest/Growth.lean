import Mathlib.Data.List.Flatten
import Discussion.Forest.Growth
import Discussion.Proofs.Forest.Address
import Discussion.Proofs.Forest.Lineage

/-!
# What a grown forest holds

`Forest.grow` cuts a forest off below a depth.  When the seeds are founders and the
offspring of a member are its children, nothing is lost by the cut once the depth
reaches the number of members, because no generation is that late.  The forest then
holds exactly the members that descend from a seed, each once, and below every node
exactly the children of its label.
-/

namespace Discussion

universe u

variable {α : Type u}

namespace Forest

@[simp]
theorem roots_ofTrees (trees : List (Tree α)) : (ofTrees trees).roots = trees := by
  rw [← trees_eq, trees_ofTrees]

@[simp]
theorem ofTrees_roots (forest : Forest α) : ofTrees forest.roots = forest := by
  rw [← trees_eq, ofTrees_trees]

theorem anyRoot_ofTrees (p : α → Bool) (trees : List (Tree α)) :
    (ofTrees trees).anyRoot p = trees.any fun tree => p tree.label := by
  induction trees with
  | nil => rfl
  | cons tree trees ih => rw [ofTrees_cons, anyRoot, ih, List.any_cons]

theorem roots_take (n : Nat) (forest : Forest α) : (forest.take n).roots = forest.roots.take n := by
  rw [take, roots_ofTrees, trees_eq]

theorem take_eq_self {forest : Forest α} {n : Nat} (h : forest.rootCount ≤ n) :
    forest.take n = forest := by
  rw [take, List.take_of_length_le h, ofTrees_trees]

theorem subtrees_ofTrees (trees : List (Tree α)) :
    (ofTrees trees).subtrees = trees.flatMap fun tree => tree :: tree.children.subtrees := by
  induction trees with
  | nil => simp
  | cons tree trees ih => rw [ofTrees_cons, subtrees_node, ih, List.flatMap_cons, List.cons_append]

theorem subtrees_eq (forest : Forest α) :
    forest.subtrees = forest.roots.flatMap fun tree => tree :: tree.children.subtrees := by
  rw [← subtrees_ofTrees, ofTrees_roots]

theorem mem_subtrees_of_mem_take {forest : Forest α} {n : Nat} {tree : Tree α}
    (h : tree ∈ (forest.take n).subtrees) :
    tree ∈ forest.subtrees := by
  rw [take, subtrees_ofTrees, trees_eq] at h
  obtain ⟨root, hroot, htree⟩ := List.mem_flatMap.mp h
  rw [subtrees_eq]
  exact List.mem_flatMap.mpr ⟨root, List.mem_of_mem_take hroot, htree⟩

theorem labels_ofTrees (trees : List (Tree α)) :
    (ofTrees trees).labels = trees.flatMap fun tree => tree.label :: tree.children.labels := by
  rw [labels, subtrees_ofTrees, List.map_flatMap]
  rfl

theorem labels_eq (forest : Forest α) :
    forest.labels = forest.roots.flatMap fun tree => tree.label :: tree.children.labels := by
  rw [← labels_ofTrees, ofTrees_roots]

theorem sublist_labels_take (n : Nat) (forest : Forest α) :
    (forest.take n).labels.Sublist forest.labels := by
  rw [labels_eq forest, take, labels_ofTrees, trees_eq]
  exact (List.take_sublist n forest.roots).flatMap _

theorem mem_labels_of_mem_take {forest : Forest α} {n : Nat} {label : α}
    (h : label ∈ (forest.take n).labels) :
    label ∈ forest.labels :=
  (sublist_labels_take n forest).subset h

theorem labels_grow_succ (offspring : α → List α) (depth : Nat) (seeds : List α) :
    (grow offspring (depth + 1) seeds).labels =
      seeds.flatMap fun seed => seed :: (grow offspring depth (offspring seed)).labels := by
  rw [grow, labels_ofTrees, List.flatMap_map]

theorem roots_grow_succ (offspring : α → List α) (depth : Nat) (seeds : List α) :
    (grow offspring (depth + 1) seeds).roots.map (·.label) = seeds := by
  simp [grow, Function.comp_def]

/-- What holds of the seeds and passes on to offspring holds of the whole forest. -/
theorem forall_labels_grow
    {p : α → Prop} {offspring : α → List α} (hoffspring : ∀ a, p a → ∀ c ∈ offspring a, p c)
    {depth : Nat} {seeds : List α} (hseeds : ∀ a ∈ seeds, p a) :
    ∀ c ∈ (grow offspring depth seeds).labels, p c := by
  induction depth generalizing seeds with
  | zero => simp [grow, labels]
  | succ depth ih =>
      intro c hc
      rw [labels_grow_succ, List.mem_flatMap] at hc
      obtain ⟨seed, hseed, hc⟩ := hc
      rcases List.mem_cons.mp hc with rfl | hbelow
      · exact hseeds c hseed
      · exact ih (hoffspring seed (hseeds seed hseed)) c hbelow

theorem treeAt?_grow_succ
    (offspring : α → List α) (depth : Nat) (seeds : List α) (i : Nat) (rest : List Nat) :
    (grow offspring (depth + 1) seeds).treeAt? (i :: rest) =
      seeds[i]?.bind fun seed =>
        ({ label := seed, children := grow offspring depth (offspring seed) } : Tree α).at?
          rest := by
  simp only [grow, treeAt?, roots_ofTrees, List.getElem?_map, Option.bind_map]
  rfl

/-- A node of a grown forest is a seed, or lies in what has grown from a seed. -/
theorem exists_seed_of_treeAt?_grow
    {offspring : α → List α} {depth : Nat} {seeds : List α} {address : List Nat} {tree : Tree α}
    (h : (grow offspring depth seeds).treeAt? address = some tree) :
    ∃ remaining rest seed, depth = remaining + 1 ∧ address.length = rest.length + 1 ∧
      seed ∈ seeds ∧
        ((rest = [] ∧ tree = { label := seed, children := grow offspring remaining (offspring seed) })
          ∨ (grow offspring remaining (offspring seed)).treeAt? rest = some tree) := by
  cases depth with
  | zero => simp [grow] at h
  | succ remaining =>
      obtain ⟨i, rest, rfl⟩ := List.exists_cons_of_ne_nil (ne_nil_of_treeAt? h)
      rw [treeAt?_grow_succ] at h
      obtain ⟨seed, hi, hseed⟩ := Option.bind_eq_some_iff.mp h
      refine ⟨remaining, rest, seed, rfl, rfl, List.mem_of_getElem? hi, ?_⟩
      by_cases hrest : rest = []
      · subst hrest
        exact Or.inl ⟨rfl, (Option.some.inj hseed).symm⟩
      · rw [at?_eq_treeAt? _ hrest] at hseed
        exact Or.inr hseed

/-- Below every node the forest has grown on from the offspring of the label there,
by the levels that remain. -/
theorem children_of_treeAt?_grow
    {offspring : α → List α} {depth : Nat} {seeds : List α} {address : List Nat} {tree : Tree α}
    (h : (grow offspring depth seeds).treeAt? address = some tree) :
    ∃ remaining, remaining + address.length = depth ∧
      tree.children = grow offspring remaining (offspring tree.label) := by
  induction depth generalizing seeds address with
  | zero => simp [grow] at h
  | succ depth ih =>
      obtain ⟨left, rest, seed, hleft, hlength, _, hseed⟩ := exists_seed_of_treeAt?_grow h
      obtain rfl := Nat.succ.inj hleft
      rcases hseed with ⟨rfl, rfl⟩ | hbelow
      · exact ⟨depth, by simp [hlength], rfl⟩
      · obtain ⟨remaining, hremaining, hchildren⟩ := ih hbelow
        exact ⟨remaining, by omega, hchildren⟩

end Forest

/-- The offspring of every member are its children among the members, and the seeds
are members without a parent, none of them named twice. -/
structure IsFamily (parent? : α → Option α) (members : List α) (offspring : α → List α)
    (seeds : List α) : Prop where
  parent_mem : ∀ a ∈ members, ∀ b, parent? a = some b → b ∈ members
  offspring_nodup : ∀ a ∈ members, (offspring a).Nodup
  mem_offspring : ∀ a ∈ members, ∀ c, c ∈ offspring a ↔ c ∈ members ∧ parent? c = some a
  seeds_nodup : seeds.Nodup
  seeds_founders : ∀ a ∈ seeds, a ∈ members ∧ parent? a = none

namespace IsFamily

variable {parent? : α → Option α} {members : List α} {offspring : α → List α} {seeds : List α}

theorem generation_of_mem_offspring
    (h : IsFamily parent? members offspring seeds) {a c : α} (ha : a ∈ members) {n : Nat}
    (hn : Generation parent? n a) (hc : c ∈ offspring a) :
    c ∈ members ∧ Generation parent? (n + 1) c := by
  obtain ⟨hmem, hparent⟩ := (h.mem_offspring a ha c).mp hc
  exact ⟨hmem, .child hparent hn⟩

/-- A node at an address of length `n + 1` is `n` generations after the seeds. -/
theorem generation_of_treeAt?
    (h : IsFamily parent? members offspring seeds) {depth first : Nat} {start : List α}
    (hstart : ∀ a ∈ start, a ∈ members ∧ Generation parent? first a)
    {address : List Nat} {tree : Tree α}
    (htree : (Forest.grow offspring depth start).treeAt? address = some tree) :
    tree.label ∈ members ∧ Generation parent? (first + (address.length - 1)) tree.label := by
  induction depth generalizing first start address with
  | zero => simp [Forest.grow] at htree
  | succ depth ih =>
      obtain ⟨left, rest, seed, hleft, hlength, hseed, hfound⟩ :=
        Forest.exists_seed_of_treeAt?_grow htree
      obtain rfl := Nat.succ.inj hleft
      obtain ⟨hmem, hgen⟩ := hstart seed hseed
      rcases hfound with ⟨rfl, rfl⟩ | hbelow
      · rw [hlength]
        exact ⟨hmem, hgen⟩
      · have hnext : ∀ a ∈ offspring seed, a ∈ members ∧ Generation parent? (first + 1) a := by
          intro a ha
          exact h.generation_of_mem_offspring hmem hgen ha
        obtain ⟨hmem', hgen'⟩ := ih hnext hbelow
        have hpos := List.length_pos_iff.mpr (Forest.ne_nil_of_treeAt? hbelow)
        have hsum : first + 1 + (rest.length - 1) = first + (address.length - 1) := by omega
        rw [hsum] at hgen'
        exact ⟨hmem', hgen'⟩

theorem seeds_generation (h : IsFamily parent? members offspring seeds) :
    ∀ a ∈ seeds, a ∈ members ∧ Generation parent? 0 a := by
  intro a ha
  obtain ⟨hmem, hfounder⟩ := h.seeds_founders a ha
  exact ⟨hmem, .founder hfounder⟩

/-- Below every node of the forest of a family stand the children of its label. -/
theorem roots_children
    (h : IsFamily parent? members offspring seeds) {address : List Nat} {tree : Tree α}
    (htree : (Forest.grow offspring members.length seeds).treeAt? address = some tree) :
    tree.children.roots.map (·.label) = offspring tree.label := by
  obtain ⟨hmem, hgen⟩ := h.generation_of_treeAt? h.seeds_generation htree
  obtain ⟨remaining, hremaining, hchildren⟩ := Forest.children_of_treeAt?_grow htree
  rw [hchildren]
  cases remaining with
  | succ remaining => exact Forest.roots_grow_succ _ _ _
  | zero =>
      -- At the last level nobody is left: a child would be of a generation that is too late.
      have hpos := List.length_pos_iff.mpr (Forest.ne_nil_of_treeAt? htree)
      have hnone : offspring tree.label = [] := by
        rw [List.eq_nil_iff_forall_not_mem]
        intro c hc
        obtain ⟨hcmem, hcgen⟩ := h.generation_of_mem_offspring hmem hgen hc
        have hlt := hcgen.lt_length h.parent_mem hcmem
        omega
      rw [hnone]
      rfl

/-! ## Who is in the forest -/

theorem of_mem_labels
    (h : IsFamily parent? members offspring seeds) {depth : Nat} {start : List α}
    (hstart : ∀ a ∈ start, a ∈ members) {c : α}
    (hc : c ∈ (Forest.grow offspring depth start).labels) :
    c ∈ members ∧ ∃ a ∈ start, DescendsFrom parent? c a := by
  induction depth generalizing start with
  | zero => simp [Forest.grow, Forest.labels] at hc
  | succ depth ih =>
      rw [Forest.labels_grow_succ, List.mem_flatMap] at hc
      obtain ⟨seed, hseed, hc⟩ := hc
      have hmem := hstart seed hseed
      rcases List.mem_cons.mp hc with rfl | hbelow
      · exact ⟨hmem, c, hseed, .refl⟩
      · have hoffspring : ∀ a ∈ offspring seed, a ∈ members ∧ parent? a = some seed := by
          intro a ha
          exact (h.mem_offspring seed hmem a).mp ha
        obtain ⟨hcmem, a, ha, hca⟩ := ih (fun a ha => (hoffspring a ha).1) hbelow
        exact ⟨hcmem, seed, hseed, hca.tail (hoffspring a ha).2⟩

/-- The forest of a family holds the members that descend from a seed. -/
theorem mem_labels_grow_iff
    (h : IsFamily parent? members offspring seeds) {c : α} :
    c ∈ (Forest.grow offspring members.length seeds).labels ↔
      c ∈ members ∧ ∃ a ∈ seeds, DescendsFrom parent? c a := by
  constructor
  · intro hc
    exact h.of_mem_labels (fun a ha => (h.seeds_founders a ha).1) hc
  · rintro ⟨hc, a, ha, hca⟩
    induction hca using Relation.ReflTransGen.head_induction_on with
    | refl =>
        obtain ⟨depth, hdepth⟩ : ∃ depth, members.length = depth + 1 :=
          Nat.exists_eq_succ_of_ne_zero (List.length_pos_of_mem hc).ne'
        rw [hdepth, Forest.labels_grow_succ, List.mem_flatMap]
        exact ⟨a, ha, List.mem_cons_self ..⟩
    | @head c b hcb _ ih =>
        have hb : b ∈ members := h.parent_mem c hc b hcb
        obtain ⟨address, tree, htree, rfl⟩ := Forest.mem_labels_iff.mp (ih hb)
        have hchild : c ∈ tree.children.roots.map (·.label) := by
          rw [h.roots_children htree]
          exact (h.mem_offspring _ hb c).mpr ⟨hc, hcb⟩
        obtain ⟨child, hroot, rfl⟩ := List.mem_map.mp hchild
        obtain ⟨i, hi⟩ := List.mem_iff_getElem?.mp hroot
        refine Forest.mem_labels_iff.mpr ⟨address ++ [i], child, ?_, rfl⟩
        rw [Forest.treeAt?_concat htree, hi]

theorem exists_child_of_mem_below
    (h : IsFamily parent? members offspring seeds) {depth : Nat} {a c : α} (ha : a ∈ members)
    (hc : c ∈ (Forest.grow offspring depth (offspring a)).labels) :
    ∃ child ∈ offspring a, DescendsFrom parent? c child := by
  have hoffspring : ∀ child ∈ offspring a, child ∈ members := by
    intro child hchild
    exact ((h.mem_offspring a ha child).mp hchild).1
  exact (h.of_mem_labels hoffspring hc).2

theorem descendsFrom_of_mem_tree
    (h : IsFamily parent? members offspring seeds) {depth : Nat} {a c : α} (ha : a ∈ members)
    (hc : c ∈ a :: (Forest.grow offspring depth (offspring a)).labels) :
    DescendsFrom parent? c a := by
  rcases List.mem_cons.mp hc with rfl | hbelow
  · exact .refl
  · obtain ⟨child, hchild, hdescends⟩ := h.exists_child_of_mem_below ha hbelow
    exact hdescends.tail ((h.mem_offspring a ha child).mp hchild).2

/-- Nobody stands below itself, since every step down is one generation further. -/
theorem not_mem_below
    (h : IsFamily parent? members offspring seeds) {depth n : Nat} {a : α} (ha : a ∈ members)
    (hn : Generation parent? n a) :
    a ∉ (Forest.grow offspring depth (offspring a)).labels := by
  intro hself
  obtain ⟨child, hchild, hdescends⟩ := h.exists_child_of_mem_below ha hself
  obtain ⟨_, hnext⟩ := h.generation_of_mem_offspring ha hn hchild
  rcases Generation.eq_or_lt_of_descendsFrom hdescends hnext with rfl | ⟨m, hm, hm'⟩
  · have := hn.unique hnext
    omega
  · have := hn.unique hm'
    omega

/-- Nobody stands in the forest twice: two things of one generation have no descendant
in common, and nobody stands below itself. -/
theorem nodup_labels_grow
    (h : IsFamily parent? members offspring seeds) {depth first : Nat} {start : List α}
    (hnodup : start.Nodup)
    (hstart : ∀ a ∈ start, a ∈ members ∧ Generation parent? first a) :
    (Forest.grow offspring depth start).labels.Nodup := by
  induction depth generalizing first start with
  | zero => simp [Forest.grow, Forest.labels]
  | succ depth ih =>
      rw [Forest.labels_grow_succ, List.nodup_flatMap]
      constructor
      · intro seed hseed
        obtain ⟨hmem, hgen⟩ := hstart seed hseed
        have hnext : ∀ child ∈ offspring seed,
            child ∈ members ∧ Generation parent? (first + 1) child := by
          intro child hchild
          exact h.generation_of_mem_offspring hmem hgen hchild
        rw [List.nodup_cons]
        exact ⟨h.not_mem_below hmem hgen, ih (h.offspring_nodup seed hmem) hnext⟩
      · apply hnodup.imp_of_mem
        intro a b ha hb hne c hca hcb
        obtain ⟨hamem, hagen⟩ := hstart a ha
        obtain ⟨hbmem, hbgen⟩ := hstart b hb
        have hdescends := h.descendsFrom_of_mem_tree hamem hca
        have hdescends' := h.descendsFrom_of_mem_tree hbmem hcb
        exact hne (Generation.eq_of_descendsFrom hagen hbgen hdescends hdescends')

theorem nodup_labels (h : IsFamily parent? members offspring seeds) (depth : Nat) :
    (Forest.grow offspring depth seeds).labels.Nodup :=
  h.nodup_labels_grow h.seeds_nodup h.seeds_generation

end IsFamily

end Discussion
