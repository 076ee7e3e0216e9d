import Mathlib
import Discussion.Proofs.Thread.Agreement
import Discussion.Proofs.View.Opening
import Discussion.Proofs.View.Paging

/-!
# Two views of a comment

A comment may be read in its thread or opened by its permalink.  Whatever is shown of it
in the thread, the permalink shows as well, with everything below it: the two views are
made from one tree, and they plan it alike.  Only the permalink of a hidden comment shows
more, namely the text of the comments that are hidden in the thread.
-/

namespace Discussion

/-- Whether the first comment of a number is of low quality for a viewer. -/
def isLowQualityFor (thresholds : Thresholds) (viewer : Viewer) (comments : List Comment)
    (id : CommentId) : Bool :=
  (first? comments id).any fun c => thresholds.classify viewer c.score == .lowQuality

theorem isLowQualityFor_id
    (thresholds : Thresholds) (viewer : Viewer) {comments : List Comment} {c : Comment}
    (hc : c ∈ firsts comments) :
    isLowQualityFor thresholds viewer comments c.id =
      (thresholds.classify viewer c.score == .lowQuality) := by
  rw [isLowQualityFor, mem_firsts_iff.mp hc, Option.any_some]

theorem Decision.seen_false (marked : CommentId → Bool) (d : Decision) :
    d.seen false marked = d := rfl

/-- In a thread no comment stands below one of its own number. -/
theorem Roster.Knows.ids_ne_of_mem_subtrees
    {roster : Roster} {comments : List Comment} (h : roster.Knows comments) {order : Order}
    {tree : Tree Comment} (htree : tree ∈ (Thread.ofRoster roster order).subtrees) :
    ∀ c ∈ tree.children.labels, c.id ≠ tree.label.id := by
  have hids : ((tree.label :: tree.children.labels).map (·.id)).Nodup :=
    (Thread.holdsWhole_ofRoster h order).ids_nodup.sublist
      ((Forest.sublist_labels_of_mem_subtrees htree).map _)
  rw [List.map_cons, List.nodup_cons] at hids
  intro c hc hid
  exact hids.1 (hid ▸ List.mem_map.mpr ⟨c, hc, rfl⟩)

namespace ThreadView

variable {settings : Settings} {ref : Reference} {viewer : Viewer} {limit : Option UInt64}
  {owner : Commentable} {comments : List Comment} {view : ThreadView}

/-- What is shown in a view of a thread is shown alike, or unveiled, when it is opened. -/
theorem value_ofPermalink_of_mem_ofThread
    (hthread : (ofThread settings ref viewer limit .oldest owner comments).value = .ok view)
    {node : Tree Decision} (hnode : node ∈ view.plan.subtrees)
    (hshown : node.label.disposition ≠ .omit) :
    ∃ c, first? comments node.label.comment = some c ∧
      (ofPermalink settings ref node.label.comment viewer owner comments).value =
        .ok (ofPlan settings ref viewer owner comments (some node.label.comment)
          ((Forest.ofTrees [node]).map (Decision.seen c.hidden
            (isLowQualityFor settings.thresholds viewer comments)))) := by
  have hknows := Roster.knows_ofList comments
  let request : Request :=
    { thresholds := settings.thresholds, viewer := viewer, permalink := none }
  obtain ⟨-, rfl⟩ := value_ofThread_eq_ok_iff.mp hthread
  have hplanned : node ∈
      (request.plan (Thread.ofRoster (Roster.ofList comments) .oldest)).subtrees :=
    Forest.mem_subtrees_of_mem_take hnode
  obtain ⟨above, tree, hwhole, rfl⟩ := Request.exists_planned_of_mem_subtrees hplanned
  have hfirsts : ∀ c ∈ tree.label :: tree.children.labels, c ∈ firsts comments := by
    intro c hc
    apply hknows.mem_firsts_of_mem_ofRoster
    exact (Forest.sublist_labels_of_mem_subtrees hwhole).subset hc
  have hfirst := mem_firsts_iff.mp (hfirsts tree.label (List.mem_cons_self ..))
  have hopened : (request.opening tree.label.id).planned [] tree = _ :=
    Request.planned_opening rfl hshown (hknows.ids_ne_of_mem_subtrees hwhole)
      (fun c hc => isLowQualityFor_id settings.thresholds viewer (hfirsts c hc))
  -- The subtree that a permalink builds is the tree that stands in the thread.
  have hvalue : (ofPermalink settings ref tree.label.id viewer owner comments).value =
      if ((request.opening tree.label.id).planned [] tree).label.isRendered then
        .ok (ofPlan settings ref viewer owner comments (some tree.label.id)
          (.ofTrees [(request.opening tree.label.id).planned [] tree]))
      else .error (.noComment tree.label.id) :=
    value_ofPermalink_of_tree settings ref viewer owner hfirst
      (Thread.subtreeOfRoster_eq_of_mem_subtrees hknows hwhole)
  rw [hopened, if_pos (by simpa using Decision.isRendered_iff.mpr hshown)] at hvalue
  rw [Request.label_planned, Request.comment_decide]
  refine ⟨tree.label, hfirst, ?_⟩
  rw [hvalue]
  simp only [Forest.ofTrees_cons, Forest.ofTrees_nil, Forest.map]

end ThreadView

namespace Source

variable {m : Type → Type} [Monad m] [Reports m] {σ : Type}

/-- Whatever a view of a thread, oldest comments first, shows of a comment, its permalink
shows as well: the same decisions if the comment is not hidden, and otherwise the same
with every note that a comment is hidden replaced by the text. -/
theorem permalink_agrees_with_thread
    {source : Source m} {runner : Runner m σ} {ref : Reference} {s t : σ}
    (hsame : source.fetch runner ref t = source.fetch runner ref s) {settings : Settings}
    {viewer : Viewer} {limit : Option UInt64} {view : ThreadView}
    (hview : (runner.run (source.thread settings ref viewer limit .oldest) s).1 = .ok view)
    {node : Tree Decision} (hnode : node ∈ view.plan.subtrees)
    (hshown : node.label.disposition ≠ .omit) :
    ∃ owner comments c opened, source.fetch runner ref s = .ok (owner, comments) ∧
      first? comments node.label.comment = some c ∧
      (runner.run (source.permalink settings ref node.label.comment viewer) t).1 = .ok opened ∧
      (c.hidden = false → opened.plan = .ofTrees [node]) ∧
      (c.hidden = true → opened.plan = (Forest.ofTrees [node]).map
        (Decision.unveiled (isLowQualityFor settings.thresholds viewer comments))) := by
  rw [run_thread, bind_eq_ok_iff] at hview
  obtain ⟨⟨owner, comments⟩, hfetch, hthread⟩ := hview
  obtain ⟨c, hfirst, hvalue⟩ :=
    ThreadView.value_ofPermalink_of_mem_ofThread hthread hnode hshown
  have hopened : (runner.run (source.permalink settings ref node.label.comment viewer) t).1 =
      (ThreadView.ofPermalink settings ref node.label.comment viewer owner comments).value := by
    rw [run_permalink, hsame, hfetch]
    rfl
  rw [hvalue] at hopened
  refine ⟨owner, comments, c, _, hfetch, hfirst, hopened, ?_, ?_⟩
  · intro hhidden
    rw [hhidden]
    exact Forest.map_eq_self (Decision.seen_false _) _
  · intro hhidden
    rw [hhidden]
    rfl

/-- A comment with a hidden reply, which has a hidden reply of low quality. -/
def covered : Snapshot where
  commentable := { reference := { kind := .article, id := 1 }, user := ⟨1⟩ }
  comments :=
    [(1, none, false, 0), (2, some 1, true, 0), (3, some 2, true, -100)].map
      fun (id, parent, hidden, score) =>
        { id := ⟨id⟩
          parent := parent.map CommentId.mk
          commentable := { kind := .article, id := 1 }
          user := ⟨1⟩
          hidden := hidden
          score := score
          createdAt := .epoch }

theorem permalink_agrees_with_thread_covered :
    let viewer := Viewer.signedIn ⟨5⟩ .empty
    let thread := (Logged.runner.run
      (covered.source.thread {} covered.reference viewer none .oldest) []).1
    let node : Tree Decision :=
      { label := { comment := ⟨2⟩, disposition := .hiddenPlaceholder, childless := false }
        children := .node { comment := ⟨3⟩, disposition := .hiddenPlaceholder, childless := true }
          .nil .nil }
    ∃ view opened, thread = .ok view ∧ node ∈ view.plan.subtrees ∧
      (Logged.runner.run
        (covered.source.permalink {} covered.reference ⟨2⟩ viewer) []).1 = .ok opened ∧
      opened.plan = .node { comment := ⟨2⟩, disposition := .full, childless := false }
        (.node { comment := ⟨3⟩, disposition := .full, lowQuality := true, childless := true }
          .nil .nil) .nil := by
  intro viewer thread node
  obtain ⟨view, hview⟩ : ∃ view, thread = .ok view := ⟨_, rfl⟩
  have hnode : node ∈ view.plan.subtrees := by
    have hcontains : thread.map (fun v => v.plan.subtrees.contains node) = .ok true := by cbv
    rw [hview] at hcontains
    simpa using Except.ok.inj hcontains
  obtain ⟨owner, comments, c, opened, hfetch, hfirst, hopened, -, hhidden⟩ :=
    permalink_agrees_with_thread (t := []) rfl hview hnode (by decide)
  obtain ⟨rfl, rfl⟩ := Prod.ext_iff.mp (Except.ok.inj hfetch)
  have hreply : first? covered.comments ⟨2⟩ = some (covered.comments.getD 1 default) := by decide
  obtain rfl := Option.some.inj (hfirst.symm.trans hreply)
  refine ⟨view, opened, hview, hnode, hopened, ?_⟩
  rw [hhidden (by decide)]
  decide

end Source

end Discussion
