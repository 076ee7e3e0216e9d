import Discussion.Proofs.Thread.Subtree

/-!
# Comments in another order of arrival

Two lists of the same comments, no number repeated, differ only in the order in which
their comments come.  Every number finds the same comment in both, so every comment has
the same parent that counts.  The replies to a comment come in different orders, and are
the same once they are sorted.  So both lists have the same thread and the same subtrees,
also where parents are missing or lead round in a circle.
-/

namespace Discussion

/-- Whether two lists have the same comments in some orders, no number repeated. -/
structure Reordered (comments others : List Comment) : Prop where
  perm : comments.Perm others
  ids_nodup : (comments.map (·.id)).Nodup

namespace Reordered

variable {comments others : List Comment}

theorem symm (h : Reordered comments others) : Reordered others comments where
  perm := h.perm.symm
  ids_nodup := (h.perm.map _).nodup_iff.mp h.ids_nodup

theorem firsts_perm (h : Reordered comments others) :
    (firsts comments).Perm (firsts others) := by
  rw [firsts_eq_self h.ids_nodup, firsts_eq_self h.symm.ids_nodup]
  exact h.perm

theorem first?_eq (h : Reordered comments others) : first? comments = first? others := by
  funext id
  apply Option.ext
  intro c
  rw [first?_eq_some_iff h.ids_nodup, first?_eq_some_iff h.symm.ids_nodup, h.perm.mem_iff]

theorem resolvedParent?_eq (h : Reordered comments others) :
    resolvedParent? comments = resolvedParent? others := by
  unfold resolvedParent?
  rw [h.first?_eq]

theorem founders_perm (h : Reordered comments others) :
    (founders comments).Perm (founders others) := by
  unfold founders
  rw [h.resolvedParent?_eq]
  exact h.firsts_perm.filter _

variable {roster other : Roster}

theorem replies_perm
    (h : Reordered comments others) (hroster : roster.Knows comments)
    (hother : other.Knows others) (id : CommentId) :
    (roster.replies.getD id []).Perm (other.replies.getD id []) := by
  have hparent : roster.parent? = other.parent? := by
    funext c
    rw [hroster.parent?_eq, hother.parent?_eq, h.resolvedParent?_eq]
  rw [Roster.getD_replies, Roster.getD_replies, hroster.members_eq, hother.members_eq, hparent]
  exact h.firsts_perm.filter _

theorem roots_perm
    (h : Reordered comments others) (hroster : roster.Knows comments)
    (hother : other.Knows others) :
    roster.roots.Perm other.roots := by
  rw [hroster.roots_eq, hother.roots_eq]
  exact h.founders_perm

theorem ofRoster_eq
    (h : Reordered comments others) (hroster : roster.Knows comments)
    (hother : other.Knows others) (order : Order) :
    Thread.ofRoster roster order = Thread.ofRoster other order := by
  have hreplies : roster.sortedReplies order = other.sortedReplies order := by
    funext c
    exact Order.sort_eq_of_perm (h.replies_perm hroster hother c.id)
      (hroster.nodup_ids_replies c.id)
  have hroots : order.sort roster.roots = order.sort other.roots :=
    Order.sort_eq_of_perm (h.roots_perm hroster hother) hroster.nodup_ids_roots
  rw [Thread.ofRoster_eq hroster, Thread.ofRoster_eq hother, hreplies, hroots,
    h.firsts_perm.length_eq]

theorem subtreeOfRoster_eq
    (h : Reordered comments others) (hroster : roster.Knows comments)
    (hother : other.Knows others) (root : Comment) (order : Order) :
    Thread.subtreeOfRoster roster root order = Thread.subtreeOfRoster other root order := by
  have hreplies : roster.repliesBut root.id order = other.repliesBut root.id order := by
    funext c
    exact Order.sort_eq_of_perm ((h.replies_perm hroster hother c.id).filter _)
      (hroster.nodup_ids_filter_replies c.id _)
  rw [Thread.subtreeOfRoster_eq hroster, Thread.subtreeOfRoster_eq hother, hreplies,
    h.firsts_perm.length_eq]

/-- The same thread is built, and the same limits are refused. -/
theorem value_build_eq
    (h : Reordered comments others) (limit : UInt64) (order : Order) :
    (Thread.build comments limit order).value = (Thread.build others limit order).value := by
  by_cases hlimit : limit = 0
  · rw [hlimit, Thread.value_build_zero, Thread.value_build_zero]
  · rw [Thread.value_build hlimit, Thread.value_build hlimit,
      h.ofRoster_eq (Roster.knows_ofList comments) (Roster.knows_ofList others)]

/-- The same subtrees are built, and the same numbers are missed. -/
theorem value_buildSubtree_eq
    (h : Reordered comments others) (root : CommentId) (order : Order) :
    (Thread.buildSubtree comments root order).value =
      (Thread.buildSubtree others root order).value := by
  rw [Thread.value_buildSubtree, Thread.value_buildSubtree, h.first?_eq]
  cases first? others root with
  | none => rfl
  | some c =>
      exact congrArg Except.ok
        (h.subtreeOfRoster_eq (Roster.knows_ofList comments) (Roster.knows_ofList others) c order)

end Reordered

end Discussion
