import Discussion.Forest.Basic

/-!
# Growing a forest

The forest over some seeds in which every node's children are given by a
function of its label, cut off below a depth.  `Forest.grow` is the definition
by recursion on the depth; `Forest.growLevels` computes it level by level, from
the seeds down and then back up, and `growLevels_eq` says that the two agree.
-/

namespace Discussion

universe u

namespace Forest

variable {α : Type u}

/-- The forest over the seeds, with at most `depth` levels. -/
def grow (offspring : α → List α) : Nat → List α → Forest α
  | 0, _ => nil
  | depth + 1, seeds =>
      ofTrees (seeds.map fun seed =>
        { label := seed, children := grow offspring depth (offspring seed) })

/-- A level of a forest: its nodes' labels, each with the number of its children. -/
abbrev Level (α : Type u) := List (α × Nat)

/-- The levels over the seeds, added in reverse to those found before. -/
def levels (offspring : α → List α) : Nat → List α → List (Level α) → List (Level α)
  | 0, _, found => found
  | _ + 1, [], found => found
  | depth + 1, seeds, found =>
      let families := seeds.map fun seed => (seed, offspring seed)
      levels offspring depth (families.flatMap (·.2))
        ((families.map fun family => (family.1, family.2.length)) :: found)

/-- The trees of a level, added in reverse to those of a list, over the trees of
the level below.  A node takes the number of trees that it has children. -/
def mountOnto : Level α → List (Tree α) → List (Tree α) → List (Tree α)
  | [], _, found => found
  | (label, n) :: rest, below, found =>
      mountOnto rest (below.drop n) ({ label := label, children := ofTrees (below.take n) } :: found)

/-- The trees of a level over the trees of the level below. -/
def mount (below : List (Tree α)) (level : Level α) : List (Tree α) :=
  (mountOnto level below []).reverse

/-- The forest over the seeds, computed level by level. -/
def growLevels (offspring : α → List α) (depth : Nat) (seeds : List α) : Forest α :=
  ofTrees ((levels offspring depth seeds []).foldl mount [])

/-! ## The levels give the forest -/

/-- The trees over the seeds. -/
def growTrees (offspring : α → List α) (depth : Nat) (seeds : List α) : List (Tree α) :=
  match depth with
  | 0 => []
  | depth + 1 =>
      seeds.map fun seed => { label := seed, children := grow offspring depth (offspring seed) }

theorem grow_eq_ofTrees (offspring : α → List α) (depth : Nat) (seeds : List α) :
    grow offspring depth seeds = ofTrees (growTrees offspring depth seeds) := by
  cases depth <;> rfl

theorem growTrees_append (offspring : α → List α) (depth : Nat) (first second : List α) :
    growTrees offspring depth (first ++ second) =
      growTrees offspring depth first ++ growTrees offspring depth second := by
  cases depth <;> simp [growTrees]

theorem mountOnto_eq (offspring : α → List α) (depth : Nat) (seeds : List α)
    (found : List (Tree α)) :
    mountOnto (seeds.map fun seed => (seed, (offspring seed).length))
        (growTrees offspring (depth + 1) (seeds.flatMap offspring)) found =
      (growTrees offspring (depth + 2) seeds).reverse ++ found := by
  induction seeds generalizing found with
  | nil => rfl
  | cons seed rest ih =>
      have h : (growTrees offspring (depth + 1) (offspring seed)).length =
          (offspring seed).length := by
        simp [growTrees]
      have hd : (growTrees offspring (depth + 1) ((seed :: rest).flatMap offspring)).drop
          (offspring seed).length =
          growTrees offspring (depth + 1) (rest.flatMap offspring) := by
        rw [List.flatMap_cons, growTrees_append]
        exact List.drop_left' h
      have ht : (growTrees offspring (depth + 1) ((seed :: rest).flatMap offspring)).take
          (offspring seed).length = growTrees offspring (depth + 1) (offspring seed) := by
        rw [List.flatMap_cons, growTrees_append]
        exact List.take_left' h
      rw [List.map_cons, mountOnto, hd, ht, ih, ← grow_eq_ofTrees]
      simp [growTrees]

theorem mountOnto_nil (level : Level α) (found : List (Tree α)) :
    mountOnto level [] found =
      (level.map fun entry => { label := entry.1, children := nil : Tree α }).reverse ++
        found := by
  induction level generalizing found with
  | nil => rfl
  | cons entry rest ih => simp [mountOnto, ih]

theorem foldl_mount_levels (offspring : α → List α) (depth : Nat) (seeds : List α)
    (found : List (Level α)) :
    (levels offspring depth seeds found).foldl mount [] =
      found.foldl mount (growTrees offspring depth seeds) := by
  induction depth generalizing seeds found with
  | zero => simp [levels, growTrees]
  | succ depth ih =>
      cases seeds with
      | nil => simp [levels, growTrees]
      | cons seed rest =>
          simp only [levels, ih, List.foldl_cons, List.map_map, List.flatMap_map]
          congr 1
          cases depth with
          | zero =>
              simp only [mount, growTrees, mountOnto_nil, grow]
              simp [Function.comp_def]
          | succ depth =>
              have h := mountOnto_eq offspring depth (seed :: rest) []
              simp only [mount, Function.comp_def]
              rw [h]
              simp

theorem growLevels_eq (offspring : α → List α) (depth : Nat) (seeds : List α) :
    growLevels offspring depth seeds = grow offspring depth seeds := by
  rw [growLevels, foldl_mount_levels, grow_eq_ofTrees]
  rfl

end Forest

end Discussion
