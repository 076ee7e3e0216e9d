import Mathlib
import Discussion.Proofs.Forest.Rearrangement
import Discussion.Proofs.View.Paging

/-!
# Views in another order

The order that is asked for arranges siblings and does nothing else.  Threads built in
two orders are rearrangements of each other.  Since a comment is decided about from the
comments above it and from whether any reply to it is shown, their plans are, too.  Only
where a limit cuts off roots does the order matter, because it says which ones are cut off.
-/

namespace Discussion

open Forest (Rearranged)

theorem Request.planFrom_rearranged
    (request : Request) {thread other : Thread} (h : Rearranged thread other)
    (place : Position) :
    Rearranged (request.planFrom place thread) (request.planFrom place other) := by
  induction h generalizing place with
  | nil => exact .nil
  | node c _ _ ihc ihs =>
      have hreplies := ihc (request.descend place c)
      rw [planFrom_node, planFrom_node, decide_congr (hreplies.anyRoot_eq Decision.isRendered)]
      exact .node _ hreplies (ihs place)
  | swap first second _ _ siblings =>
      simp only [planFrom_node]
      exact .swap ..
  | trans _ _ ihfirst ihsecond => exact (ihfirst place).trans (ihsecond place)

theorem Thread.ofRoster_rearranged
    {roster : Roster} {comments : List Comment} (h : roster.Knows comments)
    (order other : Order) :
    Rearranged (ofRoster roster order) (ofRoster roster other) := by
  have hsort : ∀ siblings, (order.sort siblings).Perm (other.sort siblings) := by
    intro siblings
    exact (order.sort_perm siblings).trans (other.sort_perm siblings).symm
  rw [ofRoster_eq h, ofRoster_eq h]
  apply Rearranged.grow_perm
  · intro c
    exact hsort (roster.replies.getD c.id [])
  · exact hsort roster.roots

namespace ThreadView

/-- Whether two views differ in the order of siblings only: each decides once about the
same comments, in the same way and below the same parents, and the rest is equal. -/
structure SameButOrder (view other : ThreadView) : Prop where
  rows_perm : view.plan.rows.Perm other.plan.rows
  ids_nodup : (view.plan.labels.map (·.comment)).Nodup
  rest_eq : other = { view with plan := other.plan }

theorem wholePlan_rearranged
    (settings : Settings) (viewer : Viewer) (comments : List Comment) (order other : Order) :
    Rearranged (wholePlan settings viewer order comments)
      (wholePlan settings viewer other comments) := by
  have hthread := Thread.ofRoster_rearranged (Roster.knows_ofList comments) order other
  rw [wholePlan, wholePlan, Request.plan_eq, Request.plan_eq]
  exact Request.planFrom_rearranged _ hthread {}

theorem nodup_ids_wholePlan
    (settings : Settings) (viewer : Viewer) (order : Order) (comments : List Comment) :
    ((wholePlan settings viewer order comments).labels.map (·.comment)).Nodup := by
  have hwhole := Thread.holdsWhole_ofRoster (Roster.knows_ofList comments) order
  rw [wholePlan, ← Forest.labels_map, Request.map_comment_plan, Forest.labels_map]
  exact hwhole.ids_nodup

end ThreadView

/-- Whether two views are the same but for the order of siblings, or cannot be given for
the same reason. -/
inductive SameOutcome : (outcome other : Except Fault ThreadView) → Prop
  | failed (fault : Fault) : SameOutcome (.error fault) (.error fault)
  | viewed {view other : ThreadView} (h : view.SameButOrder other) :
      SameOutcome (.ok view) (.ok other)

theorem ThreadView.value_ofThread_sameOutcome
    (settings : Settings) (ref : Reference) (viewer : Viewer) {limit : Option UInt64}
    (owner : Commentable) {comments : List Comment}
    (hwhole : (founders comments).length ≤ (settings.pages.limit ref.kind limit).toNat)
    (order other : Order) :
    SameOutcome (ofThread settings ref viewer limit order owner comments).value
      (ofThread settings ref viewer limit other owner comments).value := by
  have htake : ∀ order : Order,
      (wholePlan settings viewer order comments).take
          (settings.pages.limit ref.kind limit).toNat =
        wholePlan settings viewer order comments := by
    intro order
    apply Forest.take_eq_self
    rw [rootCount_wholePlan]
    exact hwhole
  rw [value_ofThread_eq_ite, value_ofThread_eq_ite, htake, htake]
  split
  next => exact .failed _
  next =>
    apply SameOutcome.viewed
    constructor
    · exact (wholePlan_rearranged settings viewer comments order other).rows_perm
    · exact nodup_ids_wholePlan settings viewer order comments
    · rfl

namespace Source

variable {m : Type → Type} [Monad m] [Reports m] {σ : Type}

/-- Where no root of a thread is cut off, two orders give views that differ in the order
of siblings only. -/
theorem thread_reordered
    {source : Source m} {runner : Runner m σ} {ref : Reference} {s t : σ}
    (hsame : source.fetch runner ref t = source.fetch runner ref s) {settings : Settings}
    {limit : Option UInt64}
    (hwhole : ∀ owner comments, source.fetch runner ref s = .ok (owner, comments) →
      (founders comments).length ≤ (settings.pages.limit ref.kind limit).toNat)
    (viewer : Viewer) (order other : Order) :
    SameOutcome (runner.run (source.thread settings ref viewer limit order) s).1
      (runner.run (source.thread settings ref viewer limit other) t).1 := by
  rw [run_thread, run_thread, hsame]
  cases hfetch : source.fetch runner ref s with
  | error fault => exact .failed fault
  | ok fetched =>
      obtain ⟨owner, comments⟩ := fetched
      exact ThreadView.value_ofThread_sameOutcome settings ref viewer owner
        (hwhole owner comments hfetch) order other

/-- Two roots, the first one with two replies, of which the later ones were voted up. -/
def votedUpLater : Snapshot where
  commentable := { reference := { kind := .article, id := 1 }, user := ⟨1⟩ }
  comments :=
    [(1, none, 0), (2, none, 5), (3, some 1, 0), (4, some 1, 7)].map fun (id, parent, score) =>
      { id := ⟨id⟩
        parent := parent.map CommentId.mk
        commentable := { kind := .article, id := 1 }
        user := ⟨1⟩
        score := score
        createdAt := .epoch }

theorem thread_reordered_votedUpLater :
    let answer (order : Order) := (Logged.runner.run
      (votedUpLater.source.thread {} votedUpLater.reference .anonymous none order) []).1
    (answer .oldest).map (fun view => view.plan.labels.map (·.comment)) =
        .ok [⟨1⟩, ⟨3⟩, ⟨4⟩, ⟨2⟩] ∧
      (answer .top).map (fun view => view.plan.labels.map (·.comment)) =
        .ok [⟨2⟩, ⟨1⟩, ⟨4⟩, ⟨3⟩] ∧
      ∃ view other, answer .oldest = .ok view ∧ answer .top = .ok other ∧
        view.SameButOrder other := by
  intro answer
  have hwhole : ∀ owner comments,
      votedUpLater.source.fetch Logged.runner votedUpLater.reference [] = .ok (owner, comments) →
        (founders comments).length ≤
          (({} : Settings).pages.limit votedUpLater.reference.kind none).toNat := by
    intro owner comments hfetch
    obtain ⟨rfl, rfl⟩ := Prod.ext_iff.mp (Except.ok.inj hfetch)
    decide
  obtain ⟨view, hview⟩ : ∃ view, answer .oldest = .ok view := ⟨_, rfl⟩
  obtain ⟨other, hother⟩ : ∃ other, answer .top = .ok other := ⟨_, rfl⟩
  have hsame : SameOutcome (answer .oldest) (answer .top) :=
    thread_reordered rfl hwhole .anonymous .oldest .top
  rw [hview, hother] at hsame
  obtain _ | hviews := hsame
  exact ⟨by cbv, by cbv, view, other, hview, hother, hviews⟩

end Source

end Discussion
