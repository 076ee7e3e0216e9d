import Discussion.Proofs.Plan.Opening
import Discussion.Proofs.Plan.Roots
import Discussion.Proofs.Plan.Standing
import Discussion.Proofs.Thread.Subtree
import Discussion.Proofs.View.Service
import Discussion.Snapshot

/-!
# Opening a permalink

A permalink opens a comment if and only if the plan for the comment and all that stands
below it shows the comment.  That is said here of the comments that were fetched.  A
comment that is suppressed opens only where some comment below it, at any distance, is
not, so that the note in its place leads somewhere.  A comment that does not open is
reported as missing, like one that was never there.
-/

namespace Discussion

/-- Whether the first comment of a number opens for a viewer. -/
inductive OpensFor (thresholds : Thresholds) (viewer : Viewer) (comments : List Comment)
    (c : Comment) : Prop
  | deleted (hdeleted : c.deleted = true)
  | moderator (hmoderator : viewer.isModerator = true)
  | anonymous (hviewer : viewer = .anonymous) (hscore : 0 ≤ c.score)
  | score (hsignedIn : viewer.isSignedIn = true) (hmoderator : viewer.isModerator = false)
      (hscore : thresholds.suppression ≤ c.score)
  | below (hsignedIn : viewer.isSignedIn = true) (hmoderator : viewer.isModerator = false)
      (d : Comment) (hd : d ∈ firsts comments)
      (hbelow : Relation.TransGen (fun a b => resolvedParent? comments a = some b) d c)
      (hkept : d.deleted = true ∨ thresholds.suppression ≤ d.score)

theorem Comment.isBarred_eq_false_iff {c : Comment} :
    c.isBarred = false ↔ c.deleted = true ∨ 0 ≤ c.score := by
  cases hdeleted : c.deleted <;> simp [isBarred, isNegative, hdeleted, Int64.not_lt]

namespace OpensFor

variable {thresholds : Thresholds} {viewer : Viewer} {comments : List Comment} {c : Comment}

theorem anonymous_iff :
    OpensFor thresholds .anonymous comments c ↔ c.deleted = true ∨ 0 ≤ c.score := by
  constructor
  · intro h
    cases h with
    | deleted hdeleted => exact Or.inl hdeleted
    | moderator hmoderator => cases hmoderator
    | anonymous _ hscore => exact Or.inr hscore
    | score hsignedIn _ _ => cases hsignedIn
    | below hsignedIn _ _ _ _ _ => cases hsignedIn
  · rintro (hdeleted | hscore)
    · exact .deleted hdeleted
    · exact .anonymous rfl hscore

/-- To viewers who are signed in and no moderators a comment opens if it, or some comment
below it, is not suppressed. -/
theorem signedIn_iff
    (hsignedIn : viewer.isSignedIn = true) (hmoderator : viewer.isModerator = false)
    (hc : c ∈ firsts comments) :
    OpensFor thresholds viewer comments c ↔
      ∃ d, (d ∈ firsts comments ∧ DescendsFrom (resolvedParent? comments) d c) ∧
        (d.deleted = true ∨ thresholds.suppression ≤ d.score) := by
  have hviewer := Viewer.ne_anonymous_of_isSignedIn hsignedIn
  constructor
  · intro h
    cases h with
    | deleted hdeleted => exact ⟨c, ⟨hc, .refl⟩, Or.inl hdeleted⟩
    | moderator hmoderator' => simp [hmoderator] at hmoderator'
    | anonymous hviewer' _ => exact absurd hviewer' hviewer
    | score _ _ hscore => exact ⟨c, ⟨hc, .refl⟩, Or.inr hscore⟩
    | below _ _ d hd hbelow hkept => exact ⟨d, ⟨hd, hbelow.to_reflTransGen⟩, hkept⟩
  · rintro ⟨d, ⟨hd, hline⟩, hkept⟩
    rcases Relation.reflTransGen_iff_eq_or_transGen.mp hline with rfl | hbelow
    · rcases hkept with hdeleted | hscore
      · exact .deleted hdeleted
      · exact .score hsignedIn hmoderator hscore
    · exact .below hsignedIn hmoderator d hd hbelow hkept

end OpensFor

/-- What is planned for the root of a permalink is shown if and only if the root opens. -/
theorem Request.planned_ne_omit_iff_opensFor
    {request : Request} {comments : List Comment} {tree : Tree Comment}
    (hpermalink : request.permalink = some tree.label.id)
    (hlabels : ∀ c, c ∈ tree.label :: tree.children.labels ↔
      c ∈ firsts comments ∧ DescendsFrom (resolvedParent? comments) c tree.label) :
    (request.planned [] tree).label.disposition ≠ .omit ↔
      OpensFor request.thresholds request.viewer comments tree.label := by
  have hroot : tree.label ∈ firsts comments := ((hlabels tree.label).mp (List.mem_cons_self ..)).1
  by_cases hsignedIn : request.viewer.isSignedIn = true
  · by_cases hmoderator : request.viewer.isModerator = true
    · have hshown := planned_ne_omit_of_isModerator hmoderator [] tree
      exact iff_of_true hshown (.moderator hmoderator)
    · rw [Bool.not_eq_true] at hmoderator
      have hviewer := Viewer.ne_anonymous_of_isSignedIn hsignedIn
      have hkept : ∀ c, request.classify c ≠ .suppressed ↔
          request.thresholds.suppression ≤ c.score := by
        intro c
        exact Thresholds.classify_ne_suppressed_iff hsignedIn hmoderator
      rw [planned_ne_omit_iff_of_permalink hviewer hpermalink,
        OpensFor.signedIn_iff hsignedIn hmoderator hroot]
      simp only [hlabels, hkept]
  · rw [Bool.not_eq_true, Viewer.isSignedIn_eq_false_iff] at hsignedIn
    rw [planned_ne_omit_iff_of_anonymous hsignedIn, Comment.isBarred_eq_false_iff, hsignedIn,
      OpensFor.anonymous_iff]

/-! ## The view of an opened comment -/

/-- The subtree of a first comment is one tree, which holds what stands below it. -/
theorem Thread.exists_tree_of_first?
    {comments : List Comment} {id : CommentId} {c : Comment} (hfirst : first? comments id = some c)
    (order : Order) :
    ∃ tree : Tree Comment, tree.label = c ∧
      subtreeOfRoster (Roster.ofList comments) c order = .ofTrees [tree] ∧
      ∀ d, d ∈ tree.label :: tree.children.labels ↔
        d ∈ firsts comments ∧ DescendsFrom (resolvedParent? comments) d c := by
  have hknows := Roster.knows_ofList comments
  have hc := mem_firsts_of_first? hfirst
  have hroots := roots_subtreeOfRoster hknows hc order
  obtain ⟨replies, hthread⟩ := Forest.exists_eq_node_of_roots hroots
  refine ⟨{ label := c, children := replies }, rfl, by simpa using hthread, ?_⟩
  intro d
  rw [← mem_labels_subtreeOfRoster_iff hknows hc, hthread]
  simp

namespace ThreadView

variable (settings : Settings) (ref : Reference) (viewer : Viewer) (owner : Commentable)

/-- The view of a comment whose subtree is known. -/
theorem value_ofPermalink_of_tree
    {comments : List Comment} {tree : Tree Comment}
    (hfirst : first? comments tree.label.id = some tree.label)
    (htree : Thread.subtreeOfRoster (Roster.ofList comments) tree.label .oldest = .ofTrees [tree]) :
    let request : Request :=
      { thresholds := settings.thresholds, viewer := viewer, permalink := some tree.label.id }
    (ofPermalink settings ref tree.label.id viewer owner comments).value =
      if (request.planned [] tree).label.isRendered then
        .ok (ofPlan settings ref viewer owner comments (some tree.label.id)
          (.ofTrees [request.planned [] tree]))
      else .error (.noComment tree.label.id) := by
  intro request
  have hplan : request.plan (.ofTrees [tree]) = .ofTrees [request.planned [] tree] :=
    request.plan_ofTrees [tree]
  have hid : (request.planned [] tree).label.comment = tree.label.id := by
    rw [Request.label_planned, Request.comment_decide]
  have hfind : Plan.find? (.ofTrees [request.planned [] tree]) tree.label.id =
      some (request.planned [] tree) := by
    simp [Plan.find?, Forest.find?, hid]
  have hbuild : (Thread.buildSubtree comments tree.label.id .oldest).value =
      .ok (.ofTrees [tree]) := by
    rw [Thread.value_buildSubtree, hfirst]
    exact congrArg Except.ok htree
  rw [value_ofPermalink, hbuild]
  simp only [Except.bind]
  rw [hplan, hfind]
  rfl

theorem value_ofPermalink_of_opensFor
    {comments : List Comment} {id : CommentId} {c : Comment} (hfirst : first? comments id = some c)
    (hopens : OpensFor settings.thresholds viewer comments c) :
    ∃ root : Tree Decision, root.label.comment = id ∧ root.label.disposition ≠ .omit ∧
      (ofPermalink settings ref id viewer owner comments).value =
        .ok (ofPlan settings ref viewer owner comments (some id) (.ofTrees [root])) := by
  obtain ⟨tree, rfl, htree, hlabels⟩ := Thread.exists_tree_of_first? hfirst .oldest
  obtain rfl := id_of_first? hfirst
  let request : Request :=
    { thresholds := settings.thresholds, viewer := viewer, permalink := some tree.label.id }
  have hshown : (request.planned [] tree).label.disposition ≠ .omit :=
    (Request.planned_ne_omit_iff_opensFor rfl hlabels).mpr hopens
  have hvalue := value_ofPermalink_of_tree settings ref viewer owner hfirst htree
  refine ⟨request.planned [] tree, ?_, hshown, ?_⟩
  · rw [Request.label_planned, Request.comment_decide]
  · rw [hvalue, if_pos (Decision.isRendered_iff.mpr hshown)]

theorem value_ofPermalink_of_not_opensFor
    {comments : List Comment} {id : CommentId}
    (hcloses : ∀ c, first? comments id = some c →
      ¬OpensFor settings.thresholds viewer comments c) :
    (ofPermalink settings ref id viewer owner comments).value = .error (.noComment id) := by
  cases hfirst : first? comments id with
  | none =>
      rw [value_ofPermalink, Thread.value_buildSubtree, hfirst]
      rfl
  | some c =>
      obtain ⟨tree, rfl, htree, hlabels⟩ := Thread.exists_tree_of_first? hfirst .oldest
      obtain rfl := id_of_first? hfirst
      let request : Request :=
        { thresholds := settings.thresholds, viewer := viewer, permalink := some tree.label.id }
      have homitted : ¬(request.planned [] tree).label.disposition ≠ .omit := by
        rw [Request.planned_ne_omit_iff_opensFor rfl hlabels]
        exact hcloses tree.label hfirst
      have hvalue := value_ofPermalink_of_tree settings ref viewer owner hfirst htree
      rw [hvalue, if_neg (mt Decision.isRendered_iff.mp homitted)]

end ThreadView

namespace Source

variable {m : Type → Type} [Monad m] [Reports m] {σ : Type}

/-- A permalink opens exactly where it should, and is reported as missing everywhere else.
The view that comes back has the comment as its only root, and shows it. -/
theorem permalink_opens
    {source : Source m} {runner : Runner m σ} {ref : Reference} {s : σ} {owner : Commentable}
    {comments : List Comment} (hfetch : source.fetch runner ref s = .ok (owner, comments))
    (settings : Settings) (viewer : Viewer) (id : CommentId) :
    let outcome := (runner.run (source.permalink settings ref id viewer) s).1
    let opens := ∃ c, first? comments id = some c ∧
      OpensFor settings.thresholds viewer comments c
    ((∃ view, outcome = .ok view) ↔ opens) ∧
      (¬opens → outcome = .error (.noComment id)) ∧
      ∀ view, outcome = .ok view → view.permalink = some id ∧
        ∃ root, view.plan.roots = [root] ∧ root.label.comment = id ∧
          root.label.disposition ≠ .omit := by
  intro outcome opens
  have houtcome : outcome =
      (ThreadView.ofPermalink settings ref id viewer owner comments).value := by
    simp only [outcome, run_permalink, hfetch]
    rfl
  have hclosed : ¬opens → outcome = .error (.noComment id) := by
    intro hcloses
    rw [houtcome]
    apply ThreadView.value_ofPermalink_of_not_opensFor
    intro c hc hopens
    exact hcloses ⟨c, hc, hopens⟩
  have hopened : opens → ∃ view, outcome = .ok view ∧ view.permalink = some id ∧
      ∃ root, view.plan.roots = [root] ∧ root.label.comment = id ∧
        root.label.disposition ≠ .omit := by
    rintro ⟨c, hc, hopens⟩
    obtain ⟨root, hid, hshown, hvalue⟩ :=
      ThreadView.value_ofPermalink_of_opensFor settings ref viewer owner hc hopens
    exact ⟨_, houtcome.trans hvalue, rfl, root, Forest.roots_ofTrees _, hid, hshown⟩
  have hopens : ∀ view, outcome = .ok view → opens := by
    intro view hok
    by_contra hcloses
    rw [hclosed hcloses] at hok
    cases hok
  refine ⟨⟨?_, ?_⟩, hclosed, ?_⟩
  · rintro ⟨view, hok⟩
    exact hopens view hok
  · intro h
    obtain ⟨view, hok, -⟩ := hopened h
    exact ⟨view, hok⟩
  · intro view hok
    obtain ⟨view', hok', hfacts⟩ := hopened (hopens view hok)
    obtain rfl : view = view' := Except.ok.inj (hok.symm.trans hok')
    exact hfacts

/-- A suppressed comment, a suppressed reply to it, and a reply to that one that is not. -/
def buried : Snapshot where
  commentable := { reference := { kind := .article, id := 1 }, user := ⟨1⟩ }
  comments :=
    [(1, none, -500), (2, some 1, -450), (3, some 2, 0)].map fun (id, parent, score) =>
      { id := ⟨id⟩
        parent := parent.map CommentId.mk
        commentable := { kind := .article, id := 1 }
        user := ⟨1⟩
        score := score
        createdAt := .epoch }

theorem permalink_opens_buried :
    let outcome (viewer : Viewer) :=
      (Logged.runner.run (buried.source.permalink {} buried.reference ⟨1⟩ viewer) []).1
    buried.source.fetch Logged.runner buried.reference [] =
        .ok (buried.commentable, buried.comments) ∧
      (∃ view, outcome (.signedIn ⟨5⟩ .empty) = .ok view ∧ view.permalink = some ⟨1⟩) ∧
      outcome .anonymous = .error (.noComment ⟨1⟩) := by
  intro outcome
  have hfetch : buried.source.fetch Logged.runner buried.reference [] =
      .ok (buried.commentable, buried.comments) := rfl
  obtain ⟨hiff, -, hfacts⟩ := permalink_opens hfetch {} (.signedIn ⟨5⟩ .empty) ⟨1⟩
  obtain ⟨-, hclosed, -⟩ := permalink_opens hfetch {} .anonymous ⟨1⟩
  have hbelow : Relation.TransGen
      (fun a b => resolvedParent? buried.comments a = some b)
      (buried.comments.getD 2 default) (buried.comments.getD 0 default) :=
    .tail (b := buried.comments.getD 1 default) (.single (by decide)) (by decide)
  have hopens : OpensFor ({} : Settings).thresholds (.signedIn ⟨5⟩ .empty) buried.comments
      (buried.comments.getD 0 default) :=
    .below rfl (by decide) _ (by decide) hbelow (by decide)
  obtain ⟨view, hview⟩ := hiff.mpr ⟨buried.comments.getD 0 default, by decide, hopens⟩
  refine ⟨hfetch, ⟨view, hview, (hfacts view hview).1⟩, hclosed ?_⟩
  rintro ⟨c, hc, hopens⟩
  obtain rfl := Option.some.inj (hc.symm.trans (show first? buried.comments ⟨1⟩ =
    some (buried.comments.getD 0 default) by decide))
  rw [OpensFor.anonymous_iff] at hopens
  revert hopens
  decide

end Source

end Discussion
