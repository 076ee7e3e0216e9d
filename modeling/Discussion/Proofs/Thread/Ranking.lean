import Discussion.Proofs.Thread.Subtree

/-!
# Ranked threads

A thread is ranked: at every level each sibling comes strictly before the next one, since no
order ties two first comments.  A limit keeps the founders that come first and cuts off the
others together with what stands below them; below a root that is kept nothing changes.
-/

namespace Discussion

/-- Whether siblings are strictly increasing at every level of a thread. -/
structure Thread.IsRanked (thread : Thread) (order : Order) : Prop where
  roots : (thread.roots.map (·.label)).Pairwise fun a b => order.compare a b = .lt
  children : ∀ address tree, thread.treeAt? address = some tree →
    (tree.children.roots.map (·.label)).Pairwise fun a b => order.compare a b = .lt

/-- Whether a thread keeps as many founders of a list as a limit allows, those that come before
all others, each with the tree that it has in the whole thread. -/
structure KeepsFirstFounders (comments : List Comment) (order : Order) (limit : UInt64)
    (whole thread : Thread) : Prop where
  count : thread.rootCount = min limit.toNat (founders comments).length
  mem_founders : ∀ c ∈ thread.roots.map (·.label), c ∈ founders comments
  before_others : ∀ c ∈ thread.roots.map (·.label), ∀ other ∈ founders comments,
    other ∉ thread.roots.map (·.label) → order.compare c other = .lt
  mem_whole : ∀ tree ∈ thread.roots, tree ∈ whole.roots

/-- What is cut off from a list comes after what is kept. -/
theorem pairwise_take_of_not_mem {α : Type} {r : α → α → Prop} {list : List α}
    (h : list.Pairwise r) {n : Nat} {a b : α} (ha : a ∈ list.take n) (hb : b ∈ list)
    (hcut : b ∉ list.take n) : r a b := by
  have hsplit : (list.take n ++ list.drop n).Pairwise r := by rwa [List.take_append_drop]
  have hb' : b ∈ list.drop n := by
    rw [← List.take_append_drop n list, List.mem_append] at hb
    exact hb.resolve_left hcut
  exact (List.pairwise_append.mp hsplit).2.2 a ha b hb'

namespace Thread

variable {roster : Roster} {comments : List Comment}

theorem isRanked_ofRoster (h : roster.Knows comments) (order : Order) :
    (ofRoster roster order).IsRanked order := by
  constructor
  · rw [roots_ofRoster h, ← h.roots_eq]
    exact Order.pairwise_lt_sort h.nodup_ids_roots
  · intro address tree htree
    have hmem := Forest.mem_subtrees_iff.mpr ⟨address, htree⟩
    rw [follows_ofRoster h order tree hmem]
    exact Order.pairwise_lt_sort (h.nodup_ids_replies tree.label.id)

theorem IsRanked.take {thread : Thread} {order : Order} (h : thread.IsRanked order) (n : Nat) :
    IsRanked (thread.take n) order := by
  constructor
  · rw [Forest.roots_take, List.map_take]
    exact h.roots.sublist (List.take_sublist n _)
  · intro address tree htree
    have hmem := Forest.mem_subtrees_of_mem_take (Forest.mem_subtrees_iff.mpr ⟨address, htree⟩)
    obtain ⟨place, hplace⟩ := Forest.mem_subtrees_iff.mp hmem
    exact h.children place tree hplace

theorem keepsFirstFounders_take (h : roster.Knows comments) (order : Order) (limit : UInt64) :
    KeepsFirstFounders comments order limit (ofRoster roster order)
      ((ofRoster roster order).take limit.toNat) := by
  have hlabels : ((ofRoster roster order).take limit.toNat).roots.map (·.label) =
      (order.sort (founders comments)).take limit.toNat := by
    rw [Forest.roots_take, List.map_take, roots_ofRoster h]
  constructor
  · rw [Forest.rootCount, Forest.trees_eq, Forest.roots_take, List.length_take,
      ← Forest.trees_eq, ← Forest.rootCount, rootCount_ofRoster h]
  · intro c hc
    rw [hlabels] at hc
    exact Order.mem_sort.mp (List.mem_of_mem_take hc)
  · intro c hc other hother hcut
    rw [hlabels] at hc hcut
    have hsorted := (isRanked_ofRoster h order).roots
    rw [roots_ofRoster h] at hsorted
    exact pairwise_take_of_not_mem hsorted hc (Order.mem_sort.mpr hother) hcut
  · intro tree htree
    rw [Forest.roots_take] at htree
    exact List.mem_of_mem_take htree

/-- Every limit that is not refused builds a ranked thread of the founders that come first, cut
off from the one whole thread that every limit with room for all founders builds. -/
theorem build_isRanked (comments : List Comment) (order : Order) :
    ∃ whole, HoldsWhole comments whole ∧
      (∀ enough : UInt64, enough ≠ 0 → (founders comments).length ≤ enough.toNat →
        (build comments enough order).value = .ok whole) ∧
      ∀ limit : UInt64, limit ≠ 0 →
        ∃ thread, (build comments limit order).value = .ok thread ∧ thread.IsRanked order ∧
          KeepsFirstFounders comments order limit whole thread := by
  have hknows := Roster.knows_ofList comments
  refine ⟨ofRoster (Roster.ofList comments) order, holdsWhole_ofRoster hknows order, ?_, ?_⟩
  · intro enough hpositive henough
    rw [value_build hpositive, Forest.take_eq_self]
    rw [rootCount_ofRoster hknows]
    exact henough
  · intro limit hlimit
    exact ⟨_, value_build hlimit comments order, (isRanked_ofRoster hknows order).take _,
      keepsFirstFounders_take hknows order limit⟩

/-- The newest of two founders, beside comments that are in no thread. -/
theorem build_isRanked_besideCircle :
    (1 : UInt64) ≠ 0 ∧ ∃ whole thread, HoldsWhole besideCircle whole ∧
      (build besideCircle 1 .latest).value = .ok thread ∧ thread.IsRanked .latest ∧
      KeepsFirstFounders besideCircle .latest 1 whole thread ∧ thread.rootCount = 1 := by
  have hlimit : (1 : UInt64) ≠ 0 := by decide
  obtain ⟨whole, hwhole, -, hlimits⟩ := build_isRanked besideCircle .latest
  obtain ⟨thread, hbuild, hranked, hkeeps⟩ := hlimits 1 hlimit
  exact ⟨hlimit, whole, thread, hwhole, hbuild, hranked, hkeeps, hkeeps.count⟩

end Thread

end Discussion
