import Mathlib
import Discussion.Proofs.Plan.Standing
import Discussion.Proofs.Thread.Outcome
import Discussion.Proofs.View.Service
import Discussion.Snapshot

/-!
# Views that are said to be complete

A view says whether its viewer sees every comment.  That is found out from the scores
alone, and only where the viewer is anonymous.  An anonymous viewer who is told so misses
nothing, and a moderator never does.  For any other viewer the scores are not looked at,
so comments of low scores are left out of views that are said to be complete: a childless
comment below the suppression threshold, and a childless root below the low quality
threshold.
-/

namespace Discussion

theorem mem_of_mem_firsts {comments : List Comment} {c : Comment} (h : c ∈ firsts comments) :
    c ∈ comments :=
  List.mem_of_find?_eq_some (mem_firsts_iff.mp h)

theorem allVisible_anonymous_iff {owner : Commentable} {comments : List Comment} :
    allVisible owner comments .anonymous = true ↔
      owner.anyCommentsHidden = false ∧ ∀ c ∈ comments, 0 ≤ c.score := by
  simp [allVisible, Viewer.isSignedIn, anyNegative, Comment.isNegative, Int64.not_lt]

namespace Request

variable {request : Request} {thread : Thread}

/-- Where no comment has a negative score, an anonymous viewer misses none. -/
theorem isShownAt_of_nonneg
    (hviewer : request.viewer = .anonymous) (hscores : ∀ c ∈ thread.labels, 0 ≤ c.score)
    {address : List Nat} {tree : Tree Comment} (htree : thread.treeAt? address = some tree) :
    (request.plan thread).IsShownAt address := by
  rw [isShownAt_iff_of_anonymous hviewer htree]
  intro c hc
  have hlabel : c ∈ thread.labels := by
    rcases List.mem_append.mp hc with habove | hself
    · obtain ⟨shorter, -, -, -, ancestor, hancestor, rfl⟩ :=
        (Forest.mem_above_iff htree).mp habove
      exact Forest.mem_labels_iff.mpr ⟨shorter, ancestor, hancestor, rfl⟩
    · rw [List.mem_singleton.mp hself]
      exact Forest.mem_labels_iff.mpr ⟨address, tree, htree, rfl⟩
  simp [Comment.isBarred, Comment.isNegative, Int64.not_lt.mpr (hscores c hlabel)]

/-- Where a signed-in viewer who is no moderator misses a comment, looked at without a
permalink. -/
theorem planned_eq_omit_iff_score_lt
    (hsignedIn : request.viewer.isSignedIn = true) (hmoderator : request.viewer.isModerator = false)
    (hpermalink : request.permalink = none) (above : List Comment) (tree : Tree Comment) :
    (request.planned above tree).label.disposition = .omit ↔
      tree.label.deleted = false ∧ (request.planned above tree).label.childless = true ∧
        (tree.label.score < request.thresholds.suppression ∨
          (tree.label.score < request.thresholds.lowQuality ∧ above = [])) := by
  have hviewer := Viewer.ne_anonymous_of_isSignedIn hsignedIn
  rw [planned_eq_omit_iff hviewer]
  refine and_congr_right fun _ => and_congr_right fun _ => ?_
  by_cases hlow : tree.label.score < request.thresholds.suppression
  · have hclass : request.classify tree.label = .suppressed :=
      Thresholds.classify_eq_suppressed_iff.mpr (Or.inr ⟨hsignedIn, hmoderator, hlow⟩)
    simp [hclass, hlow]
  · have hclass : request.classify tree.label ≠ .suppressed :=
      (Thresholds.classify_ne_suppressed_iff hsignedIn hmoderator).mpr (Int64.not_lt.mp hlow)
    have hquality := Thresholds.classify_eq_ite_of_ne_suppressed hsignedIn hclass
    rw [classify] at hclass ⊢
    by_cases hscore : tree.label.score < request.thresholds.lowQuality <;>
      simp [hquality, hlow, hscore, hpermalink, hmoderator]

end Request

namespace ThreadView

/-- What a view leaves out, read off the comments that were fetched. -/
structure LeavesOut (settings : Settings) (viewer : Viewer) (comments : List Comment)
    (view : ThreadView) : Prop where
  anonymous : viewer = .anonymous → view.allVisible = true →
    ∀ d ∈ view.plan.labels, d.disposition ≠ .omit
  moderator : viewer.isModerator = true → ∀ d ∈ view.plan.labels, d.disposition ≠ .omit
  signedIn : viewer.isSignedIn = true → viewer.isModerator = false →
    ∀ address node, view.plan.treeAt? address = some node →
      ∃ c, first? comments node.label.comment = some c ∧
        (node.label.disposition = .omit ↔
          c.deleted = false ∧ node.label.childless = true ∧
            (c.score < settings.thresholds.suppression ∨
              (c.score < settings.thresholds.lowQuality ∧ address.length = 1)))

theorem leavesOut_of_ofThread
    {settings : Settings} {ref : Reference} {viewer : Viewer} {limit : Option UInt64}
    {order : Order} {owner : Commentable} {comments : List Comment} {view : ThreadView}
    (h : (ofThread settings ref viewer limit order owner comments).value = .ok view) :
    view.LeavesOut settings viewer comments := by
  rw [value_ofThread, map_eq_ok_iff] at h
  obtain ⟨thread, hbuild, rfl⟩ := h
  constructor
  · rintro rfl hvisible d hd
    have hscores : ∀ c ∈ thread.labels, 0 ≤ c.score := by
      intro c hc
      have hfirst := Thread.mem_firsts_of_build hbuild hc
      exact (allVisible_anonymous_iff.mp hvisible).2 c (mem_of_mem_firsts hfirst)
    obtain ⟨address, planned, hplanned, rfl⟩ := Forest.mem_labels_iff.mp hd
    have htree := hplanned
    simp only [ofPlan, Request.treeAt?_plan, Option.map_eq_some_iff] at htree
    obtain ⟨tree, htree, -⟩ := htree
    let request : Request :=
      { thresholds := settings.thresholds, viewer := .anonymous, permalink := none }
    have hviewer : request.viewer = .anonymous := rfl
    obtain ⟨shown, hshown, hrendered⟩ := Request.isShownAt_of_nonneg hviewer hscores htree
    obtain rfl := Option.some.inj (hshown.symm.trans hplanned)
    exact hrendered
  · intro hmoderator d hd
    obtain ⟨address, planned, hplanned, rfl⟩ := Forest.mem_labels_iff.mp hd
    simp only [ofPlan, Request.treeAt?_plan, Option.map_eq_some_iff] at hplanned
    obtain ⟨tree, -, rfl⟩ := hplanned
    exact Request.planned_ne_omit_of_isModerator hmoderator _ _
  · intro hsignedIn hmoderator address planned hplanned
    simp only [ofPlan, Request.treeAt?_plan, Option.map_eq_some_iff] at hplanned
    obtain ⟨tree, htree, rfl⟩ := hplanned
    have hlabel := Forest.mem_labels_iff.mpr ⟨address, tree, htree, rfl⟩
    refine ⟨tree.label, ?_, ?_⟩
    · rw [Request.label_planned, Request.comment_decide]
      exact mem_firsts_iff.mp (Thread.mem_firsts_of_build hbuild hlabel)
    · rw [Request.planned_eq_omit_iff_score_lt hsignedIn hmoderator rfl, ← List.length_eq_zero_iff]
      have hlength := Forest.length_above htree
      have hroot : (thread.above address).length = 0 ↔ address.length = 1 := by omega
      rw [hroot]

end ThreadView

namespace Source

variable {m : Type → Type} [Monad m] [Reports m] {σ : Type}

/-- What the view of a thread leaves out, for every viewer. -/
theorem thread_leavesOut
    {source : Source m} {runner : Runner m σ} {settings : Settings} {ref : Reference}
    {viewer : Viewer} {limit : Option UInt64} {order : Order} {s : σ} {view : ThreadView}
    (hview : (runner.run (source.thread settings ref viewer limit order) s).1 = .ok view) :
    ∃ owner comments, source.fetch runner ref s = .ok (owner, comments) ∧
      view.allVisible = allVisible owner comments viewer ∧
      view.LeavesOut settings viewer comments := by
  rw [run_thread, bind_eq_ok_iff] at hview
  obtain ⟨⟨owner, comments⟩, hfetch, hview⟩ := hview
  refine ⟨owner, comments, hfetch, ?_, ThreadView.leavesOut_of_ofThread hview⟩
  rw [ThreadView.value_ofThread, map_eq_ok_iff] at hview
  obtain ⟨thread, -, rfl⟩ := hview
  rfl

/-- A comment that everybody voted down. -/
def votedDown : Snapshot where
  commentable := { reference := { kind := .article, id := 1 }, user := ⟨1⟩ }
  comments :=
    [{ id := ⟨1⟩
       commentable := { kind := .article, id := 1 }
       user := ⟨1⟩
       score := -1000
       createdAt := .epoch }]

/-- The comment is left out for a viewer who is signed in, although the view is said to be
complete. -/
theorem thread_leavesOut_votedDown :
    let viewer : Viewer := .signedIn ⟨5⟩ .empty
    ∃ view, (Logged.runner.run
        (votedDown.source.thread {} votedDown.reference viewer none .top) []).1 = .ok view ∧
      view.allVisible = true ∧
      (∃ node, view.plan.treeAt? [0] = some node ∧ node.label.disposition = .omit) ∧
      view.LeavesOut {} viewer votedDown.comments := by
  intro viewer
  obtain ⟨view, hview, hplan⟩ : ∃ view, (Logged.runner.run
      (votedDown.source.thread {} votedDown.reference viewer none .top) []).1 = .ok view ∧
      view.plan = .node { comment := ⟨1⟩, disposition := .omit, childless := true } .nil .nil :=
    ⟨_, rfl, by cbv⟩
  obtain ⟨owner, comments, hfetch, hvisible, hleaves⟩ := thread_leavesOut hview
  obtain ⟨rfl, rfl⟩ := Prod.ext_iff.mp (Except.ok.inj hfetch)
  refine ⟨view, hview, ?_, ?_, hleaves⟩
  · rw [hvisible]
    decide
  · rw [hplan]
    exact ⟨_, rfl, rfl⟩

/-- A viewer who is signed in is told that every comment is to be seen, and sees none. -/
theorem thread_claims_omitted_visible :
    ∃ view, (Logged.runner.run (votedDown.source.thread {} votedDown.reference
        (.signedIn ⟨5⟩ .empty) none .top) []).1 = .ok view ∧
      view.allVisible = true ∧
      view.plan = .node { comment := ⟨1⟩, disposition := .omit, childless := true } .nil .nil :=
  ⟨_, rfl, by decide, by cbv⟩

end Source

end Discussion
