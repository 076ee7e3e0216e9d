import Mathlib
import Discussion.Proofs.Command.Rendering
import Discussion.Proofs.Plan.Decision
import Discussion.Proofs.Thread.Arrival
import Discussion.Proofs.View.Service

/-!
# The scores that are printed

A printed row has its disposition from the plan and its score from a map of its own.  Both are
made from the comments of one snapshot, but where a number is repeated they choose differently:
the thread keeps the first comment of the number, the map the last one.  So a row may show the
score of a comment that the thread left out.
-/

namespace Discussion

/-! ## The last comment of a number -/

/-- The last comment with a number. -/
def last? (comments : List Comment) (id : CommentId) : Option Comment :=
  first? comments.reverse id

theorem last?_concat (seen : List Comment) (c : Comment) (id : CommentId) :
    last? (seen ++ [c]) id = if c.id = id then some c else last? seen id := by
  rw [last?, List.reverse_concat, first?_cons]
  rfl

theorem exists_last?_of_first? {comments : List Comment} {id : CommentId} {c : Comment}
    (h : first? comments id = some c) : ∃ late, last? comments id = some late := by
  have hc : c ∈ comments.reverse := List.mem_reverse.mpr (List.mem_of_find?_eq_some h)
  have hsome : (last? comments id).isSome = true := by
    rw [last?, first?, List.find?_isSome]
    exact ⟨c, hc, by simpa using id_of_first? h⟩
  exact Option.isSome_iff_exists.mp hsome

/-- Where no number is repeated, the first comment of a number is the last. -/
theorem last?_eq_first? {comments : List Comment} (hids : (comments.map (·.id)).Nodup) :
    last? comments = first? comments := by
  have hreordered : Reordered comments comments.reverse :=
    ⟨(List.reverse_perm comments).symm, hids⟩
  exact hreordered.first?_eq.symm

theorem Scores.getElem?_ofComments (comments : List Comment) (id : CommentId) :
    (Scores.ofComments comments)[id]? = (last? comments id).map (·.score) := by
  induction comments using List.reverseRecOn with
  | nil => simp [Scores.ofComments, last?, first?]
  | append_singleton seen c ih =>
      rw [Scores.ofComments, List.foldl_concat, ← Scores.ofComments, Std.HashMap.getElem?_insert,
        ih, last?_concat]
      by_cases hid : c.id = id <;> simp [hid]

/-! ## Rows -/

/-- Whether a row tells a decision, with the score of a comment. -/
structure Row.Tells (row : Row) (decision : Decision) (scored : Comment) : Prop where
  comment : row.comment = decision.comment
  disposition : row.disposition = decision.disposition
  lowQuality : row.lowQuality = decision.lowQuality
  childless : row.childless = decision.childless
  score : row.score = some scored.score

/-- The rows of a thread that was built from a list: one for each comment of the thread, in
preorder.  What a row tells is decided about the first comment of its number, and its score is
that of the last. -/
structure TellsThread (request : Request) (comments : List Comment) (thread : Thread)
    (rows : List Row) : Prop where
  map_comment : rows.map (·.comment) = thread.labels.map (·.id)
  tells : ∀ row ∈ rows, ∃ address tree late,
    thread.treeAt? address = some tree ∧
      first? comments row.comment = some tree.label ∧
      last? comments row.comment = some late ∧
      row.Tells (request.planned (thread.above address) tree).label late

theorem tellsThread_toRows
    {request : Request} {comments : List Comment} {thread : Thread}
    (hthread : ∀ c ∈ thread.labels, c ∈ firsts comments) :
    TellsThread request comments thread
      ((request.plan thread).toRows (Scores.ofComments comments)) where
  map_comment := by
    rw [Plan.toRows, List.map_map]
    calc
      _ = ((request.plan thread).rows.map (·.2.2)).map Decision.comment := by
        rw [List.map_map]
        rfl
      _ = thread.labels.map (·.id) := by
        rw [Forest.map_label_rows, ← Forest.labels_map, request.map_comment_plan,
          Forest.labels_map]
  tells := by
    intro row hrow
    obtain ⟨⟨depth, parent, decision⟩, hmem, rfl⟩ := List.mem_map.mp hrow
    have hdecision : decision ∈ (request.plan thread).labels := by
      rw [← Forest.map_label_rows]
      exact List.mem_map.mpr ⟨_, hmem, rfl⟩
    obtain ⟨address, node, hnode, rfl⟩ := Forest.mem_labels_iff.mp hdecision
    rw [request.treeAt?_plan, Option.map_eq_some_iff] at hnode
    obtain ⟨tree, htree, rfl⟩ := hnode
    have hid : (request.planned (thread.above address) tree).label.comment = tree.label.id :=
      request.comment_decide _ _ _
    have hkept : first? comments tree.label.id = some tree.label :=
      mem_firsts_iff.mp (hthread _ (Forest.mem_labels_iff.mpr ⟨address, tree, htree, rfl⟩))
    obtain ⟨late, hlate⟩ := exists_last?_of_first? hkept
    have hscore : (Scores.ofComments comments)[
        (request.planned (thread.above address) tree).label.comment]? = some late.score := by
      rw [Scores.getElem?_ofComments, hid, hlate]
      rfl
    exact ⟨address, tree, late, htree, (congrArg (first? comments) hid).trans hkept,
      (congrArg (last? comments) hid).trans hlate, ⟨rfl, rfl, rfl, rfl, hscore⟩⟩

/-- Where no number is repeated, the score is that of the comment that the row is about. -/
theorem TellsThread.score_of_nodup
    {request : Request} {comments : List Comment} {thread : Thread} {rows : List Row}
    (h : TellsThread request comments thread rows) (hids : (comments.map (·.id)).Nodup) :
    ∀ row ∈ rows, ∃ kept, first? comments row.comment = some kept ∧
      row.score = some kept.score := by
  intro row hrow
  obtain ⟨address, tree, late, -, -, hlate, htells⟩ := h.tells row hrow
  rw [last?_eq_first? hids] at hlate
  exact ⟨late, hlate, htells.score⟩

/-! ## What is printed -/

theorem Snapshot.fetch_source (snapshot : Snapshot) (world : World) :
    snapshot.source.fetch Program.runner snapshot.reference world =
      .ok (snapshot.commentable, snapshot.comments) := by
  simp [Source.fetch, source, Program.runner, Except.bind, Except.map]

namespace RenderRequest

/-- The request for the plan of what is rendered. -/
def planning (request : RenderRequest) (settings : Settings) : Request :=
  { thresholds := settings.thresholds
    viewer := request.viewer
    permalink := request.permalink }

/-- The thread that is rendered: that of a permalink, oldest first, or as much as is asked for. -/
def thread (request : RenderRequest) (settings : Settings) (snapshot : Snapshot) :
    Except Fault Thread :=
  match request.permalink with
  | some id => (Thread.buildSubtree snapshot.comments id .oldest).value
  | none =>
      (Thread.build snapshot.comments
        (settings.pages.limit snapshot.reference.kind request.limit) request.order).value

/-- The view of a thread of a snapshot. -/
def view (request : RenderRequest) (settings : Settings) (snapshot : Snapshot) (thread : Thread) :
    ThreadView :=
  .ofPlan settings snapshot.reference request.viewer snapshot.commentable snapshot.comments
    request.permalink ((request.planning settings).plan thread)

/-- The rows of a thread of a snapshot. -/
def rows (request : RenderRequest) (settings : Settings) (snapshot : Snapshot) (thread : Thread) :
    List Row :=
  (request.view settings snapshot thread).plan.toRows (Scores.ofComments snapshot.comments)

/-- The text for a thread of a snapshot, in the form that is asked for. -/
def printout (request : RenderRequest) (palette : Palette) (settings : Settings)
    (snapshot : Snapshot) (thread : Thread) : String :=
  let view := request.view settings snapshot thread
  let rows := request.rows settings snapshot thread
  if request.json then view.printJson rows else view.printText palette request.viewer rows

theorem mem_firsts_of_thread
    {request : RenderRequest} {settings : Settings} {snapshot : Snapshot} {thread : Thread}
    (h : request.thread settings snapshot = .ok thread) {c : Comment} (hc : c ∈ thread.labels) :
    c ∈ firsts snapshot.comments := by
  rw [RenderRequest.thread] at h
  cases hpermalink : request.permalink with
  | some id =>
      rw [hpermalink] at h
      exact Thread.mem_firsts_of_buildSubtree h hc
  | none =>
      rw [hpermalink] at h
      exact Thread.mem_firsts_of_build h hc

end RenderRequest

namespace Environment

theorem ok_of_run_during {α : Type} {program : Program (Except Fault α)} {doing : String}
    {world : World} {a : α} (h : ((during doing program).run world).1 = .ok a) :
    (program.run world).1 = .ok a := by
  rw [during, Program.run_bind] at h
  cases hresult : (program.run world).1 with
  | ok b =>
      rw [hresult] at h
      exact congrArg Except.ok (Except.ok.inj h)
  | error fault =>
      rw [hresult] at h
      cases h

/-- A view of a snapshot is that of a thread that was built. -/
theorem exists_thread_of_chosenView
    {settings : Settings} {request : RenderRequest} {snapshot : Snapshot} {world : World}
    {view : ThreadView}
    (h : ((chosenView settings request snapshot).run world).1 = .ok view) :
    ∃ thread, request.thread settings snapshot = .ok thread ∧
      view = request.view settings snapshot thread := by
  unfold chosenView at h
  unfold RenderRequest.thread RenderRequest.view RenderRequest.planning
  cases hpermalink : request.permalink with
  | some id =>
      rw [hpermalink] at h
      have hview := (Source.run_permalink _ Program.runner _ _ _ _ world).symm.trans
        (ok_of_run_during h)
      rw [Snapshot.fetch_source] at hview
      change (ThreadView.ofPermalink _ _ _ _ _ _).value = _ at hview
      rw [ThreadView.value_ofPermalink, bind_eq_ok_iff] at hview
      obtain ⟨thread, hthread, hview⟩ := hview
      refine ⟨thread, hthread, ?_⟩
      dsimp only at hview
      split at hview
      · exact (Except.ok.inj hview).symm
      · cases hview
  | none =>
      rw [hpermalink] at h
      have hview := (Source.run_thread _ Program.runner _ _ _ _ _ world).symm.trans
        (ok_of_run_during h)
      rw [Snapshot.fetch_source] at hview
      change (ThreadView.ofThread _ _ _ _ _ _ _).value = _ at hview
      rw [ThreadView.value_ofThread, map_eq_ok_iff] at hview
      obtain ⟨thread, hthread, rfl⟩ := hview
      exact ⟨thread, hthread, rfl⟩

/-- Whoever prints a snapshot prints a thread of it, and nothing else. -/
theorem exists_thread_of_printSnapshot
    {palette : Palette} {settings : Settings} {request : RenderRequest} {snapshot : Snapshot}
    {world last : World}
    (h : (printSnapshot palette settings request snapshot).run world = (.ok (), last)) :
    ∃ thread, request.thread settings snapshot = .ok thread ∧
      last.output = world.output ++ request.printout palette settings snapshot thread := by
  rw [printSnapshot, Program.run_bind] at h
  obtain ⟨reported, hreported⟩ : ∃ reported,
      ((Program.report (.rendering snapshot.reference request.viewer)).run world).2 = reported :=
    ⟨_, rfl⟩
  have hlook : (chosenView settings request snapshot).Does Action.IsLook :=
    does_chosenView (fun _ => trivial) settings request snapshot
  obtain ⟨events, hevents⟩ := hlook.run_of_isLook reported
  rw [hreported] at h
  cases hview : ((chosenView settings request snapshot).run reported).1 with
  | error failure =>
      rw [Program.run_onSuccess_of_error (Prod.ext hview hevents)] at h
      cases h
  | ok view =>
      rw [Program.run_onSuccess_of_ok (Prod.ext hview hevents)] at h
      obtain ⟨thread, hthread, rfl⟩ := exists_thread_of_chosenView hview
      obtain rfl := (Prod.ext_iff.mp h).2
      refine ⟨thread, hthread, ?_⟩
      rw [← hreported]
      rfl

/-- What is printed of a snapshot are the rows of a thread that was built from its comments.  The
disposition of a row was decided about the first comment of its number, and its score is that of
the last one.  The two are the same comment where no number is repeated. -/
theorem printSnapshot_tellsThread
    {palette : Palette} {settings : Settings} {request : RenderRequest} {snapshot : Snapshot}
    {world last : World}
    (h : (printSnapshot palette settings request snapshot).run world = (.ok (), last)) :
    ∃ thread, request.thread settings snapshot = .ok thread ∧
      last.output = world.output ++ request.printout palette settings snapshot thread ∧
      TellsThread (request.planning settings) snapshot.comments thread
        (request.rows settings snapshot thread) ∧
      ((snapshot.comments.map (·.id)).Nodup → ∀ row ∈ request.rows settings snapshot thread,
        ∃ kept, first? snapshot.comments row.comment = some kept ∧
          row.score = some kept.score) := by
  obtain ⟨thread, hthread, houtput⟩ := exists_thread_of_printSnapshot h
  have htells : TellsThread (request.planning settings) snapshot.comments thread
      (request.rows settings snapshot thread) :=
    tellsThread_toRows fun c hc => RenderRequest.mem_firsts_of_thread hthread hc
  exact ⟨thread, hthread, houtput, htells, htells.score_of_nodup⟩

def posted : Comment where
  id := ⟨1⟩
  commentable := { kind := .article, id := 1 }
  user := ⟨1⟩
  createdAt := .epoch

/-- A comment that comes a second time, with a lower score. -/
def reposted : Snapshot where
  commentable := { reference := { kind := .article, id := 1 }, user := ⟨1⟩ }
  comments := [posted, { posted with score := -5 }]

theorem run_printSnapshot_reposted :
    ∃ last, (printSnapshot { coloured := false } {} {} reposted).run {} = (.ok (), last) ∧
      last.output = "article-1 2 comments, 1 shown to anonymous\n" ++
        "Some comments are hidden from this viewer\n\n#1 full (score -5)\n" :=
  ⟨_, Prod.ext (by cbv) rfl, by cbv⟩

theorem printSnapshot_tellsThread_reposted :
    let request : RenderRequest := {}
    ∃ last, (printSnapshot { coloured := false } {} request reposted).run {} = (.ok (), last) ∧
      ∃ thread, request.thread {} reposted = .ok thread ∧
        last.output = "" ++ request.printout { coloured := false } {} reposted thread ∧
        TellsThread (request.planning {}) reposted.comments thread
          (request.rows {} reposted thread) := by
  intro request
  obtain ⟨last, hlast, -⟩ := run_printSnapshot_reposted
  obtain ⟨thread, hthread, houtput, htells, -⟩ := printSnapshot_tellsThread hlast
  exact ⟨last, hlast, thread, hthread, houtput, htells⟩

/-- The comment is shown as it came first, with the score that it had when it came again. -/
theorem not_score_of_kept_reposted :
    let request : RenderRequest := {}
    reposted.validate = .ok () ∧
      ∃ last, (printSnapshot { coloured := false } {} request reposted).run {} = (.ok (), last) ∧
        last.output = "article-1 2 comments, 1 shown to anonymous\n" ++
          "Some comments are hidden from this viewer\n\n#1 full (score -5)\n" ∧
        ∃ thread, request.thread {} reposted = .ok thread ∧
          last.output = "" ++ request.printout { coloured := false } {} reposted thread ∧
          ¬∀ row ∈ request.rows {} reposted thread, ∃ kept,
            first? reposted.comments row.comment = some kept ∧ row.score = some kept.score := by
  intro request
  have hvalid : reposted.validate = .ok () := by decide
  obtain ⟨last, hlast, htext⟩ := run_printSnapshot_reposted
  obtain ⟨thread, hthread, houtput⟩ := exists_thread_of_printSnapshot hlast
  obtain rfl : thread = .node posted .nil .nil := by
    have hbuilt : request.thread {} reposted = .ok (.node posted .nil .nil) := by cbv
    exact Except.ok.inj (hthread.symm.trans hbuilt)
  have hrows : request.rows {} reposted (.node posted .nil .nil) =
      [{ comment := ⟨1⟩, parent := none, depth := 0, disposition := .full, lowQuality := false
         childless := true, score := some (-5) }] := by cbv
  refine ⟨hvalid, last, hlast, htext, _, hthread, houtput, fun hkept => ?_⟩
  obtain ⟨kept, hfound, hscore⟩ := hkept _ (hrows ▸ List.mem_singleton_self _)
  have hfirst : first? reposted.comments ⟨1⟩ = some posted := rfl
  obtain rfl := Option.some.inj (hfirst.symm.trans hfound)
  have hdiffer : (-5 : Int64) ≠ posted.score := by decide
  exact hdiffer (Option.some.inj hscore)

end Environment

end Discussion
