import Mathlib.Data.List.Nodup
import Mathlib.Data.List.Perm.Subperm
import Mathlib.Logic.Relation

/-!
# Lineages

Things of which some have a parent.  The line of parents of a thing ends at a
founder, which has none, or never ends.  A founder is of generation zero, and a
child of the generation after its parent's; a thing whose line never ends is of no
generation.  A line that ends has no repetitions, so among finitely many members
every generation is below their number.  A line that never ends runs into a circle.
Whatever leads to a thing still does after the thing itself has been made a founder.
-/

namespace Discussion

universe u

variable {α : Type u} {parent? : α → Option α}

/-- Whether the line of parents of the first thing leads to the second. -/
abbrev DescendsFrom (parent? : α → Option α) : α → α → Prop :=
  Relation.ReflTransGen fun a b => parent? a = some b

/-- Whether a thing lies so many steps below a thing without a parent. -/
inductive Generation (parent? : α → Option α) : Nat → α → Prop
  | founder {a : α} (h : parent? a = none) : Generation parent? 0 a
  | child {a b : α} {n : Nat} (h : parent? a = some b) (hb : Generation parent? n b) :
      Generation parent? (n + 1) a

namespace Generation

theorem unique {a : α} {m n : Nat}
    (hm : Generation parent? m a) (hn : Generation parent? n a) :
    m = n := by
  induction hm generalizing n with
  | founder h =>
      cases hn with
      | founder _ => rfl
      | child h' _ =>
          rw [h] at h'
          cases h'
  | child h _ ih =>
      cases hn with
      | founder h' =>
          rw [h] at h'
          cases h'
      | child h' hb' =>
          obtain rfl := Option.some.inj (h.symm.trans h')
          rw [ih hb']

theorem eq_or_lt_of_descendsFrom {a b : α} {n : Nat}
    (h : DescendsFrom parent? a b) (hb : Generation parent? n b) :
    a = b ∨ ∃ m, n < m ∧ Generation parent? m a := by
  induction h using Relation.ReflTransGen.head_induction_on with
  | refl => exact Or.inl rfl
  | head hac _ ih =>
      right
      rcases ih with rfl | ⟨m, hm, hc⟩
      · exact ⟨n + 1, Nat.lt_succ_self n, .child hac hb⟩
      · exact ⟨m + 1, Nat.lt_succ_of_lt hm, .child hac hc⟩

/-- Of one generation, a thing descends from at most one. -/
theorem eq_of_descendsFrom {a b c : α} {n : Nat}
    (hb : Generation parent? n b) (hc : Generation parent? n c)
    (hab : DescendsFrom parent? a b) (hac : DescendsFrom parent? a c) :
    b = c := by
  have hunique : Relator.RightUnique fun a b : α => parent? a = some b := by
    intro x y z hxy hxz
    exact Option.some.inj (hxy.symm.trans hxz)
  have hdistinct : ∀ {x y : α}, Generation parent? n x → Generation parent? n y →
      DescendsFrom parent? x y → x = y := by
    intro x y hx hy hxy
    rcases eq_or_lt_of_descendsFrom hxy hy with heq | ⟨m, hm, hx'⟩
    · exact heq
    · have := unique hx hx'
      omega
  rcases Relation.ReflTransGen.total_of_right_unique hunique hab hac with h | h
  · exact hdistinct hb hc h
  · exact (hdistinct hc hb h).symm

/-- The line of a thing up to its founder, without repetitions. -/
theorem exists_line {members : List α}
    (hclosed : ∀ a ∈ members, ∀ b, parent? a = some b → b ∈ members)
    {a : α} {n : Nat} (h : Generation parent? n a) (ha : a ∈ members) :
    ∃ line : List α, line.Nodup ∧ line.length = n + 1 ∧ line ⊆ members ∧
      ∀ b ∈ line, ∃ m ≤ n, Generation parent? m b := by
  induction h with
  | @founder a h =>
      refine ⟨[a], by simp, rfl, by simpa using ha, ?_⟩
      intro b hb
      obtain rfl := List.mem_singleton.mp hb
      exact ⟨0, Nat.le_refl 0, .founder h⟩
  | @child a b n h hb ih =>
      obtain ⟨line, hnodup, hlength, hsubset, hline⟩ := ih (hclosed a ha b h)
      have hnew : a ∉ line := by
        intro hmem
        obtain ⟨m, hm, ham⟩ := hline a hmem
        have := unique ham (.child h hb)
        omega
      refine ⟨a :: line, List.nodup_cons.mpr ⟨hnew, hnodup⟩, by simp [hlength],
        List.cons_subset.mpr ⟨ha, hsubset⟩, ?_⟩
      intro c hc
      rcases List.mem_cons.mp hc with rfl | hc
      · exact ⟨n + 1, Nat.le_refl _, .child h hb⟩
      · obtain ⟨m, hm, hcm⟩ := hline c hc
        exact ⟨m, Nat.le_succ_of_le hm, hcm⟩

theorem lt_length {members : List α}
    (hclosed : ∀ a ∈ members, ∀ b, parent? a = some b → b ∈ members)
    {a : α} {n : Nat} (h : Generation parent? n a) (ha : a ∈ members) :
    n < members.length := by
  obtain ⟨line, hnodup, hlength, hsubset, _⟩ := exists_line hclosed h ha
  have hle := (hnodup.subperm hsubset).length_le
  omega

end Generation

/-! ## Lines that never end -/

/-- Whether some thing on the line of parents, or the thing itself, descends from itself. -/
def RunsIntoCircle (parent? : α → Option α) (a : α) : Prop :=
  ∃ b, DescendsFrom parent? a b ∧ Relation.TransGen (fun c d => parent? c = some d) b b

/-- A line that never comes back to where it was passes as many members as it has steps. -/
theorem exists_long_line {members : List α}
    (hclosed : ∀ a ∈ members, ∀ b, parent? a = some b → b ∈ members)
    {a : α} (ha : a ∈ members) (hnever : ∀ b, DescendsFrom parent? a b → parent? b ≠ none)
    (hcircle : ¬RunsIntoCircle parent? a) (n : Nat) :
    ∃ (last : α) (line : List α), line.length = n ∧ (last :: line).Nodup ∧
      ∀ b ∈ last :: line, b ∈ members ∧ DescendsFrom parent? a b ∧
        DescendsFrom parent? b last := by
  induction n with
  | zero =>
      refine ⟨a, [], rfl, by simp, ?_⟩
      intro b hb
      obtain rfl := List.mem_singleton.mp hb
      exact ⟨ha, .refl, .refl⟩
  | succ n ih =>
      obtain ⟨last, line, hlength, hnodup, hline⟩ := ih
      obtain ⟨hmem, hreach, _⟩ := hline last (List.mem_cons_self ..)
      obtain ⟨next, hnext⟩ := Option.ne_none_iff_exists'.mp (hnever last hreach)
      have hnew : next ∉ last :: line := by
        intro hback
        obtain ⟨_, hreach', hlast⟩ := hline next hback
        exact hcircle ⟨next, hreach', Relation.TransGen.tail' hlast hnext⟩
      refine ⟨next, last :: line, by simp [hlength], List.nodup_cons.mpr ⟨hnew, hnodup⟩, ?_⟩
      intro b hb
      rcases List.mem_cons.mp hb with rfl | hb
      · exact ⟨hclosed last hmem b hnext, hreach.tail hnext, .refl⟩
      · obtain ⟨hbmem, hbreach, hblast⟩ := hline b hb
        exact ⟨hbmem, hbreach, hblast.tail hnext⟩

/-- Among finitely many members, a line that never ends runs into a circle. -/
theorem runsIntoCircle_of_never_ends {members : List α}
    (hclosed : ∀ a ∈ members, ∀ b, parent? a = some b → b ∈ members)
    {a : α} (ha : a ∈ members) (hnever : ∀ b, DescendsFrom parent? a b → parent? b ≠ none) :
    RunsIntoCircle parent? a := by
  by_contra hcircle
  obtain ⟨last, line, hlength, hnodup, hline⟩ :=
    exists_long_line hclosed ha hnever hcircle members.length
  have hsubset : last :: line ⊆ members := fun b hb => (hline b hb).1
  have hle := (hnodup.subperm hsubset).length_le
  rw [List.length_cons] at hle
  omega

/-! ## Making a founder -/

/-- The parents of all things but one, which is made a founder. -/
def foundedBy [DecidableEq α] (root : α) (parent? : α → Option α) (a : α) : Option α :=
  if a = root then none else parent? a

section Founding

variable [DecidableEq α] {root : α}

theorem foundedBy_self : foundedBy root parent? root = none := by
  simp [foundedBy]

theorem foundedBy_eq_some_iff {a b : α} :
    foundedBy root parent? a = some b ↔ a ≠ root ∧ parent? a = some b := by
  simp [foundedBy]

/-- Making a thing a founder cuts no line below it. -/
theorem descendsFrom_foundedBy_iff {a : α} :
    DescendsFrom (foundedBy root parent?) a root ↔ DescendsFrom parent? a root := by
  constructor
  · intro h
    exact Relation.ReflTransGen.mono (fun _ _ hstep => (foundedBy_eq_some_iff.mp hstep).2) _ _ h
  · intro h
    induction h using Relation.ReflTransGen.head_induction_on with
    | refl => exact .refl
    | @head c d hstep _ ih =>
        by_cases hc : c = root
        · rw [hc]
        · exact .head (foundedBy_eq_some_iff.mpr ⟨hc, hstep⟩) ih

end Founding

end Discussion
