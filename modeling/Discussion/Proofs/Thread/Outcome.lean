import Discussion.Proofs.Forest.Growth
import Discussion.Proofs.Order.Laws
import Discussion.Proofs.Thread.Resolution
import Discussion.Thread.Basic

/-!
# What building a thread gives

The forest or the fault that is built from a list, and where the comments of the
forest come from.  Whatever the limit cuts off and wherever a subtree starts, a
thread holds none but first comments of the list.
-/

namespace Discussion

namespace Roster.Knows

variable {roster : Roster} {comments : List Comment}

theorem mem_firsts_of_mem_replies (h : roster.Knows comments) {c : Comment} {id : CommentId}
    (hc : c ∈ roster.replies.getD id []) :
    c ∈ firsts comments := by
  rw [getD_replies, h.members_eq] at hc
  exact (List.mem_filter.mp hc).1

theorem mem_firsts_of_mem_ofRoster
    (h : roster.Knows comments) {order : Order} {c : Comment}
    (hc : c ∈ (Thread.ofRoster roster order).labels) :
    c ∈ firsts comments := by
  rw [Thread.ofRoster, Forest.growLevels_eq] at hc
  refine Forest.forall_labels_grow (p := fun c => c ∈ firsts comments) ?_ ?_ c hc
  · intro a _ c hc
    exact h.mem_firsts_of_mem_replies (Order.mem_sort.mp hc)
  · intro a ha
    rw [Order.mem_sort, h.roots_eq] at ha
    exact (List.mem_filter.mp ha).1

theorem mem_firsts_of_mem_subtreeOfRoster
    (h : roster.Knows comments) {root : Comment} (hroot : root ∈ firsts comments)
    {order : Order} {c : Comment}
    (hc : c ∈ (Thread.subtreeOfRoster roster root order).labels) :
    c ∈ firsts comments := by
  rw [Thread.subtreeOfRoster, Forest.growLevels_eq] at hc
  refine Forest.forall_labels_grow (p := fun c => c ∈ firsts comments) ?_ ?_ c hc
  · intro a _ c hc
    exact h.mem_firsts_of_mem_replies (List.mem_filter.mp (Order.mem_sort.mp hc)).1
  · intro a ha
    rw [List.mem_singleton.mp ha]
    exact hroot

end Roster.Knows

namespace Thread

theorem value_build_zero (comments : List Comment) (order : Order) :
    (build comments 0 order).value = .error (.invalidArgument .zeroLimit) := by
  simp [build]

theorem value_build
    {limit : UInt64} (hlimit : limit ≠ 0) (comments : List Comment) (order : Order) :
    (build comments limit order).value =
      .ok ((ofRoster (Roster.ofList comments) order).take limit.toNat) := by
  simp [build, hlimit]

theorem value_build_eq_ok_iff
    {comments : List Comment} {limit : UInt64} {order : Order} {thread : Thread} :
    (build comments limit order).value = .ok thread ↔
      limit ≠ 0 ∧ thread = (ofRoster (Roster.ofList comments) order).take limit.toNat := by
  by_cases hlimit : limit = 0
  · rw [hlimit, value_build_zero]
    simp
  · rw [value_build hlimit, Except.ok.injEq, eq_comm]
    simp [hlimit]

theorem value_buildSubtree (comments : List Comment) (root : CommentId) (order : Order) :
    (buildSubtree comments root order).value =
      match first? comments root with
      | none => .error (.noComment root)
      | some c => .ok (subtreeOfRoster (Roster.ofList comments) c order) := by
  rw [← (Roster.knows_ofList comments).find?_eq root]
  simp only [buildSubtree, Logged.value_bind]
  cases (Roster.ofList comments).find? root with
  | none => rfl
  | some c => rfl

theorem mem_firsts_of_build
    {comments : List Comment} {limit : UInt64} {order : Order} {thread : Thread}
    (h : (build comments limit order).value = .ok thread) {c : Comment} (hc : c ∈ thread.labels) :
    c ∈ firsts comments := by
  obtain ⟨-, rfl⟩ := value_build_eq_ok_iff.mp h
  exact (Roster.knows_ofList comments).mem_firsts_of_mem_ofRoster
    (Forest.mem_labels_of_mem_take hc)

theorem mem_firsts_of_buildSubtree
    {comments : List Comment} {root : CommentId} {order : Order} {thread : Thread}
    (h : (buildSubtree comments root order).value = .ok thread)
    {c : Comment} (hc : c ∈ thread.labels) :
    c ∈ firsts comments := by
  rw [value_buildSubtree] at h
  cases hfirst : first? comments root with
  | none =>
      rw [hfirst] at h
      cases h
  | some top =>
      rw [hfirst] at h
      obtain rfl := Except.ok.inj h
      exact (Roster.knows_ofList comments).mem_firsts_of_mem_subtreeOfRoster
        (mem_firsts_of_first? hfirst) hc

end Thread

end Discussion
