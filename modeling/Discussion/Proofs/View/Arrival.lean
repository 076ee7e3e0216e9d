import Discussion.Proofs.Thread.Arrival
import Discussion.Proofs.View.Service
import Discussion.Snapshot

/-!
# Views of comments in another order of arrival

A source may deliver the comments of a commentable in any order.  Where no number is
repeated, a view shows nothing of that order: what is built from the comments is the
same, and the rest of a view counts them or asks whether one of them is negative.
-/

namespace Discussion

/-- Whether two fetches ended in the same fault, or in the same commentable with the
same comments in some orders. -/
inductive SameFetch : (fetched other : Except Fault (Commentable × List Comment)) → Prop
  | failed (fault : Fault) : SameFetch (.error fault) (.error fault)
  | reordered (owner : Commentable) {comments others : List Comment}
      (h : Reordered comments others) : SameFetch (.ok (owner, comments)) (.ok (owner, others))

namespace Reordered

variable {comments others : List Comment}

theorem allVisible_eq
    (h : Reordered comments others) (owner : Commentable) (viewer : Viewer) :
    allVisible owner comments viewer = allVisible owner others viewer := by
  have hnegative : anyNegative comments = anyNegative others := h.perm.any_eq
  rw [allVisible, allVisible, hnegative]

theorem ofPlan_eq
    (h : Reordered comments others) (settings : Settings) (ref : Reference) (viewer : Viewer)
    (owner : Commentable) (permalink : Option CommentId) (plan : Plan) :
    ThreadView.ofPlan settings ref viewer owner comments permalink plan =
      ThreadView.ofPlan settings ref viewer owner others permalink plan := by
  rw [ThreadView.ofPlan, ThreadView.ofPlan, h.perm.length_eq, h.allVisible_eq]

theorem value_ofThread_eq
    (h : Reordered comments others) (settings : Settings) (ref : Reference) (viewer : Viewer)
    (limit : Option UInt64) (order : Order) (owner : Commentable) :
    (ThreadView.ofThread settings ref viewer limit order owner comments).value =
      (ThreadView.ofThread settings ref viewer limit order owner others).value := by
  simp only [ThreadView.value_ofThread, h.value_build_eq, h.ofPlan_eq]

theorem value_ofPermalink_eq
    (h : Reordered comments others) (settings : Settings) (ref : Reference) (id : CommentId)
    (viewer : Viewer) (owner : Commentable) :
    (ThreadView.ofPermalink settings ref id viewer owner comments).value =
      (ThreadView.ofPermalink settings ref id viewer owner others).value := by
  simp only [ThreadView.value_ofPermalink, h.value_buildSubtree_eq, h.ofPlan_eq]

end Reordered

/-- What is made of the same fetches is the same, if it does not depend on the order of
comments. -/
theorem SameFetch.bind_eq
    {fetched other : Except Fault (Commentable × List Comment)} (h : SameFetch fetched other)
    {next : Commentable × List Comment → Except Fault ThreadView}
    (hnext : ∀ owner comments others, Reordered comments others →
      next (owner, comments) = next (owner, others)) :
    fetched.bind next = other.bind next := by
  cases h with
  | failed fault => rfl
  | reordered owner hcomments => exact hnext owner _ _ hcomments

namespace Source

variable {m n : Type → Type} [Monad m] [Reports m] [Monad n] [Reports n] {σ τ : Type}

/-- Two sources that answer with the same comments in different orders are told apart by
no view, whatever the settings are, whoever asks, and whatever is asked for. -/
theorem views_eq_of_sameFetch
    {source : Source m} {runner : Runner m σ} {other : Source n} {otherRunner : Runner n τ}
    {ref : Reference} {s : σ} {t : τ}
    (h : SameFetch (source.fetch runner ref s) (other.fetch otherRunner ref t))
    (settings : Settings) (viewer : Viewer) :
    (∀ limit order,
      (runner.run (source.thread settings ref viewer limit order) s).1 =
        (otherRunner.run (other.thread settings ref viewer limit order) t).1) ∧
      ∀ id, (runner.run (source.permalink settings ref id viewer) s).1 =
        (otherRunner.run (other.permalink settings ref id viewer) t).1 := by
  constructor
  · intro limit order
    rw [run_thread, run_thread]
    apply h.bind_eq
    intro owner comments others hcomments
    exact hcomments.value_ofThread_eq settings ref viewer limit order owner
  · intro id
    rw [run_permalink, run_permalink]
    apply h.bind_eq
    intro owner comments others hcomments
    exact hcomments.value_ofPermalink_eq settings ref id viewer owner

/-- A root with two replies, a comment whose parent is missing, and two comments that each
name the other as their parent. -/
def unrepeated : Snapshot where
  commentable := { reference := { kind := .article, id := 1 }, user := ⟨1⟩ }
  comments :=
    [(1, none), (2, some 1), (3, some 1), (4, some 9), (5, some 6), (6, some 5)].map
      fun (id, parent) =>
        { id := ⟨id⟩
          parent := parent.map CommentId.mk
          commentable := { kind := .article, id := 1 }
          user := ⟨1⟩
          createdAt := .epoch }

/-- The same comments, the last one first. -/
def backwards : Snapshot :=
  { unrepeated with comments := unrepeated.comments.reverse }

theorem views_eq_of_sameFetch_backwards :
    SameFetch (unrepeated.source.fetch Logged.runner unrepeated.reference [])
        (backwards.source.fetch Logged.runner unrepeated.reference []) ∧
      (∀ limit order,
        (Logged.runner.run
            (unrepeated.source.thread {} unrepeated.reference .anonymous limit order) []).1 =
          (Logged.runner.run
            (backwards.source.thread {} unrepeated.reference .anonymous limit order) []).1) ∧
      ∀ id, (Logged.runner.run
          (unrepeated.source.permalink {} unrepeated.reference id .anonymous) []).1 =
        (Logged.runner.run
          (backwards.source.permalink {} unrepeated.reference id .anonymous) []).1 := by
  have hreordered : Reordered unrepeated.comments backwards.comments :=
    { perm := (List.reverse_perm _).symm, ids_nodup := by decide }
  have hfetch : SameFetch (unrepeated.source.fetch Logged.runner unrepeated.reference [])
      (backwards.source.fetch Logged.runner unrepeated.reference []) :=
    .reordered unrepeated.commentable hreordered
  exact ⟨hfetch, views_eq_of_sameFetch hfetch {} .anonymous⟩

end Source

end Discussion
