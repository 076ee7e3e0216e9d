import Discussion.Proofs.Plan.Decision
import Discussion.Proofs.Thread.Outcome
import Discussion.Proofs.View.Service

/-!
# What a view gives away

A view tells its viewer no more than the viewer may know, from the comments that were
fetched to the decisions on the page.  Text is shown, or said to be hidden, only of a
comment that is not deleted and whose score is not kept from the viewer.  Text that an
author hid is shown only where the permalink of a hidden comment was opened.
-/

namespace Discussion

/-- Whether a decision about a comment tells the viewer no more than the viewer may
know, in a view where hidden comments may be revealed or not. -/
structure Decision.IsDiscreet (thresholds : Thresholds) (viewer : Viewer) (revealing : Prop)
    (c : Comment) (d : Decision) : Prop where
  kept : d.disposition = .full ∨ d.disposition = .hiddenPlaceholder → c.deleted = false
  anonymous : d.disposition = .full ∨ d.disposition = .hiddenPlaceholder →
    viewer = .anonymous → 0 ≤ c.score
  signedIn : d.disposition = .full ∨ d.disposition = .hiddenPlaceholder →
    viewer.isSignedIn = true → viewer.isModerator = false → thresholds.suppression ≤ c.score
  hidden : d.disposition = .hiddenPlaceholder → c.hidden = true
  revealed : d.disposition = .full → c.hidden = true → revealing

/-- Whether a permalink was opened and the first comment of its number is hidden. -/
def OpensHidden (comments : List Comment) (permalink : Option CommentId) : Prop :=
  ∃ id, permalink = some id ∧ ∃ opened, first? comments id = some opened ∧ opened.hidden = true

/-- Whether every decision in a view is about a fetched comment, and discreet about the
first one of its number. -/
def ThreadView.IsDiscreet (thresholds : Thresholds) (viewer : Viewer) (comments : List Comment)
    (permalink : Option CommentId) (view : ThreadView) : Prop :=
  ∀ d ∈ view.plan.labels, ∃ c, first? comments d.comment = some c ∧
    d.IsDiscreet thresholds viewer (OpensHidden comments permalink) c

namespace Thresholds

theorem nonneg_of_classify_anonymous
    {thresholds : Thresholds} {score : Int64}
    (h : thresholds.classify .anonymous score ≠ .suppressed) :
    0 ≤ score := by
  rw [ne_eq, classify_eq_suppressed_iff] at h
  by_contra hneg
  exact h (Or.inl ⟨rfl, Int64.not_le.mp hneg⟩)

end Thresholds

namespace Request

theorem isDiscreet_of_classify
    {request : Request} {c : Comment} (hdeleted : c.deleted = false)
    (hclass : request.classify c ≠ .suppressed) {revealing : Prop} {d : Decision}
    (hhidden : d.disposition = .hiddenPlaceholder → c.hidden = true)
    (hrevealed : d.disposition = .full → c.hidden = true → revealing) :
    d.IsDiscreet request.thresholds request.viewer revealing c := by
  constructor
  · intro _
    exact hdeleted
  · intro _ hanonymous
    rw [classify, hanonymous] at hclass
    exact Thresholds.nonneg_of_classify_anonymous hclass
  · intro _ hsignedIn hmoderator
    exact (Thresholds.classify_ne_suppressed_iff hsignedIn hmoderator).mp hclass
  · exact hhidden
  · exact hrevealed

/-- A decision that shows no text is discreet about every comment. -/
theorem isDiscreet_of_textless
    {thresholds : Thresholds} {viewer : Viewer} {revealing : Prop} {c : Comment} {d : Decision}
    (hfull : d.disposition ≠ .full) (hplaceholder : d.disposition ≠ .hiddenPlaceholder) :
    d.IsDiscreet thresholds viewer revealing c := by
  have htext : ¬(d.disposition = .full ∨ d.disposition = .hiddenPlaceholder) := by
    rintro (h | h)
    · exact hfull h
    · exact hplaceholder h
  constructor
  · intro h
    exact absurd h htext
  · intro h
    exact absurd h htext
  · intro h
    exact absurd h htext
  · intro h
    exact absurd h hplaceholder
  · intro h
    exact absurd h hfull

theorem decide_isDiscreet
    (request : Request) (here : Position) (c : Comment) (replies : Plan) :
    (request.decide here c replies).IsDiscreet request.thresholds request.viewer
      (here.revealed = true) c := by
  cases hdenied : here.denied with
  | true =>
      rw [decide_of_denied hdenied]
      exact isDiscreet_of_textless (by simp) (by simp)
  | false =>
      rw [decide_of_not_denied hdenied]
      dsimp only
      generalize (!replies.anyRoot Decision.isRendered) = childless
      have hshows := request.shows_disposition here childless c
      generalize request.disposition here childless c = disposition at hshows ⊢
      cases hshows with
      | deleted _ => exact isDiscreet_of_textless (by simp) (by simp)
      | dropped _ _ _ => exact isDiscreet_of_textless (by simp) (by simp)
      | suppressed _ _ _ => exact isDiscreet_of_textless (by simp) (by simp)
      | hidden hdeleted _ hclass hhidden _ =>
          exact isDiscreet_of_classify hdeleted hclass (fun _ => hhidden) (by simp)
      | full hdeleted _ hclass hrevealed =>
          exact isDiscreet_of_classify hdeleted hclass (by simp) (fun _ => hrevealed)

/-- Every decision of a plan is about a comment of the thread, and discreet about it.
What reveals a hidden comment is a comment of the thread as well. -/
theorem isDiscreet_of_mem_plan
    {request : Request} {thread : Thread} {d : Decision}
    (hd : d ∈ (request.plan thread).labels) :
    ∃ c ∈ thread.labels, d.comment = c.id ∧
      d.IsDiscreet request.thresholds request.viewer
        (∃ opened ∈ thread.labels, request.permalink = some opened.id ∧ opened.hidden = true)
        c := by
  obtain ⟨address, planned, hplanned, rfl⟩ := Forest.mem_labels_iff.mp hd
  rw [treeAt?_plan] at hplanned
  obtain ⟨tree, htree, rfl⟩ := Option.map_eq_some_iff.mp hplanned
  have hlabel := Forest.mem_labels_iff.mpr ⟨address, tree, htree, rfl⟩
  refine ⟨tree.label, hlabel, comment_decide .., ?_⟩
  have hdiscreet := request.decide_isDiscreet (request.positionBelow (thread.above address)
    tree.label) tree.label (request.planned (thread.above address) tree).children
  refine { hdiscreet with revealed := fun hfull hhidden => ?_ }
  obtain ⟨opened, hopened, hreveals⟩ :=
    List.any_eq_true.mp (hdiscreet.revealed hfull hhidden)
  simp only [reveals, Bool.and_eq_true, beq_iff_eq] at hreveals
  refine ⟨opened, ?_, hreveals⟩
  rcases List.mem_append.mp hopened with habove | hself
  · obtain ⟨shorter, _, _, _, ancestor, hancestor, rfl⟩ := (Forest.mem_above_iff htree).mp habove
    exact Forest.mem_labels_iff.mpr ⟨shorter, ancestor, hancestor, rfl⟩
  · rw [List.mem_singleton.mp hself]
    exact hlabel

end Request

namespace ThreadView

/-- A plan for first comments of the list makes a discreet view. -/
theorem isDiscreet_of_plan
    (request : Request) {thread : Thread} {comments : List Comment} {view : ThreadView}
    (hplan : view.plan = request.plan thread)
    (hthread : ∀ c ∈ thread.labels, c ∈ firsts comments) :
    view.IsDiscreet request.thresholds request.viewer comments request.permalink := by
  intro d hd
  rw [hplan] at hd
  obtain ⟨c, hc, hid, hdiscreet⟩ := Request.isDiscreet_of_mem_plan hd
  refine ⟨c, ?_, { hdiscreet with revealed := fun hfull hhidden => ?_ }⟩
  · rw [hid]
    exact mem_firsts_iff.mp (hthread c hc)
  · obtain ⟨opened, hopened, hpermalink, hhides⟩ := hdiscreet.revealed hfull hhidden
    exact ⟨opened.id, hpermalink, opened, mem_firsts_iff.mp (hthread opened hopened), hhides⟩

theorem ofThread_isDiscreet
    {settings : Settings} {ref : Reference} {viewer : Viewer} {limit : Option UInt64}
    {order : Order} {owner : Commentable} {comments : List Comment} {view : ThreadView}
    (h : (ofThread settings ref viewer limit order owner comments).value = .ok view) :
    view.IsDiscreet settings.thresholds viewer comments none := by
  rw [value_ofThread, map_eq_ok_iff] at h
  obtain ⟨thread, hbuild, rfl⟩ := h
  have hthread : ∀ c ∈ thread.labels, c ∈ firsts comments := by
    intro c hc
    exact Thread.mem_firsts_of_build hbuild hc
  exact isDiscreet_of_plan
    { thresholds := settings.thresholds, viewer := viewer, permalink := none } rfl hthread

theorem ofPermalink_isDiscreet
    {settings : Settings} {ref : Reference} {id : CommentId} {viewer : Viewer}
    {owner : Commentable} {comments : List Comment} {view : ThreadView}
    (h : (ofPermalink settings ref id viewer owner comments).value = .ok view) :
    view.IsDiscreet settings.thresholds viewer comments (some id) := by
  rw [value_ofPermalink, bind_eq_ok_iff] at h
  obtain ⟨thread, hbuild, h⟩ := h
  have hthread : ∀ c ∈ thread.labels, c ∈ firsts comments := by
    intro c hc
    exact Thread.mem_firsts_of_buildSubtree hbuild hc
  dsimp only at h
  split at h
  · obtain rfl := Except.ok.inj h
    exact isDiscreet_of_plan
      { thresholds := settings.thresholds, viewer := viewer, permalink := some id } rfl hthread
  · cases h

end ThreadView

namespace Source

variable {m : Type → Type} [Monad m] [Reports m] {σ : Type}

/-- Whoever asks a source for a thread or for a permalink, and whatever the settings
are, a view that comes back is discreet about the comments that were fetched for it. -/
theorem views_areDiscreet
    (source : Source m) (runner : Runner m σ) (settings : Settings) (ref : Reference)
    (viewer : Viewer) (s : σ) :
    (∀ limit order view,
      (runner.run (source.thread settings ref viewer limit order) s).1 = .ok view →
        ∃ owner comments, source.fetch runner ref s = .ok (owner, comments) ∧
          view.IsDiscreet settings.thresholds viewer comments none) ∧
      ∀ id view, (runner.run (source.permalink settings ref id viewer) s).1 = .ok view →
        ∃ owner comments, source.fetch runner ref s = .ok (owner, comments) ∧
          view.IsDiscreet settings.thresholds viewer comments (some id) := by
  constructor
  · intro limit order view hview
    rw [run_thread, bind_eq_ok_iff] at hview
    obtain ⟨⟨owner, comments⟩, hfetch, hview⟩ := hview
    exact ⟨owner, comments, hfetch, ThreadView.ofThread_isDiscreet hview⟩
  · intro id view hview
    rw [run_permalink, bind_eq_ok_iff] at hview
    obtain ⟨⟨owner, comments⟩, hfetch, hview⟩ := hview
    exact ⟨owner, comments, hfetch, ThreadView.ofPermalink_isDiscreet hview⟩

end Source

end Discussion
