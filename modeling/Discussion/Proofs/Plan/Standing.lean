import Discussion.Proofs.Plan.Appearance

/-!
# The standing of a viewer

Of a viewer only two things matter to a plan, whether the viewer is signed in and whether
the viewer is a moderator.  Moderators are shown every comment.  Of comments that are not
suppressed for others they see neither more nor less than others do, but for the roots of
low quality without shown replies, which only moderators are shown.
-/

namespace Discussion

theorem Viewer.isSignedIn_of_isModerator
    {viewer : Viewer} (h : viewer.isModerator = true) :
    viewer.isSignedIn = true := by
  cases viewer with
  | anonymous => cases h
  | signedIn _ _ => rfl

theorem Viewer.ne_anonymous_of_isSignedIn
    {viewer : Viewer} (h : viewer.isSignedIn = true) :
    viewer ≠ .anonymous := by
  rintro rfl
  cases h

namespace Thresholds

variable {thresholds : Thresholds} {viewer other : Viewer}

theorem classify_congr
    (hsignedIn : viewer.isSignedIn = other.isSignedIn)
    (hmoderator : viewer.isModerator = other.isModerator) (score : Int64) :
    thresholds.classify viewer score = thresholds.classify other score := by
  simp only [classify, hsignedIn, hmoderator]

theorem classify_ne_suppressed_of_isModerator
    (hmoderator : viewer.isModerator = true) (score : Int64) :
    thresholds.classify viewer score ≠ .suppressed := by
  have hviewer := Viewer.ne_anonymous_of_isModerator hmoderator
  rw [ne_eq, classify_eq_suppressed_iff]
  simp [hviewer, hmoderator]

theorem classify_eq_of_ne_suppressed
    {score : Int64} (hviewer : viewer.isSignedIn = true) (hother : other.isSignedIn = true)
    (h : thresholds.classify viewer score ≠ .suppressed)
    (h' : thresholds.classify other score ≠ .suppressed) :
    thresholds.classify viewer score = thresholds.classify other score := by
  rw [classify_eq_ite_of_ne_suppressed hviewer h, classify_eq_ite_of_ne_suppressed hother h']

end Thresholds

namespace Request

/-- The same request by another viewer. -/
def onBehalfOf (request : Request) (viewer : Viewer) : Request :=
  { request with viewer := viewer }

@[simp]
theorem viewer_onBehalfOf (request : Request) (viewer : Viewer) :
    (request.onBehalfOf viewer).viewer = viewer := rfl

@[simp]
theorem permalink_onBehalfOf (request : Request) (viewer : Viewer) :
    (request.onBehalfOf viewer).permalink = request.permalink := rfl

@[simp]
theorem reveals_onBehalfOf (request : Request) (viewer : Viewer) :
    (request.onBehalfOf viewer).reveals = request.reveals := rfl

/-- How what a moderator is shown of a comment at a depth compares with what is shown to
the viewer of a request. -/
structure IsWidenedTo (request : Request) (depth : Nat) (c : Comment) (d moderated : Decision) :
    Prop where
  shown : moderated.disposition ≠ .omit
  full : d.disposition = .full →
    moderated.disposition = .full ∧ moderated.lowQuality = d.lowQuality
  hidden : d.disposition = .hiddenPlaceholder → moderated.disposition = .hiddenPlaceholder
  differing : moderated.disposition ≠ d.disposition →
    c.deleted = false ∧
      (request.classify c = .suppressed ∨
        (d.disposition = .omit ∧ d.childless = true ∧ request.classify c = .lowQuality ∧
          depth = 0 ∧ request.permalink = none)) ∧
      (moderated.disposition = .full ∨ moderated.disposition = .hiddenPlaceholder)

/-! ## Viewers of the same standing -/

theorem plan_onBehalfOf
    (request : Request) {viewer : Viewer}
    (hsignedIn : viewer.isSignedIn = request.viewer.isSignedIn)
    (hmoderator : viewer.isModerator = request.viewer.isModerator) (thread : Thread) :
    (request.onBehalfOf viewer).plan thread = request.plan thread := by
  have hclassify : (request.onBehalfOf viewer).classify = request.classify := by
    funext c
    exact Thresholds.classify_congr hsignedIn hmoderator c.score
  have henter : (request.onBehalfOf viewer).enter = request.enter := by
    funext place c
    simp only [enter, denies, hclassify, viewer_onBehalfOf, hsignedIn, reveals_onBehalfOf]
  have hdescend : (request.onBehalfOf viewer).descend = request.descend := by
    funext place c
    simp only [descend, henter]
  have hdrops : (request.onBehalfOf viewer).dropsWhenChildless = request.dropsWhenChildless := by
    funext depth c
    simp only [dropsWhenChildless, hclassify, viewer_onBehalfOf, hmoderator,
      permalink_onBehalfOf]
  have hdisposition : (request.onBehalfOf viewer).disposition = request.disposition := by
    funext here childless c
    simp only [disposition, hclassify, hdrops]
  have hdecide : (request.onBehalfOf viewer).decide = request.decide := by
    funext here c replies
    simp only [decide, hdisposition, hclassify]
  simp only [plan, hdescend, hdecide, henter]

/-! ## Moderators -/

theorem planned_ne_omit_of_isModerator
    {request : Request} (hmoderator : request.viewer.isModerator = true)
    (above : List Comment) (tree : Tree Comment) :
    (request.planned above tree).label.disposition ≠ .omit := by
  have hdenied : (request.positionBelow above tree.label).denied = false :=
    any_denies_eq_false (Viewer.ne_anonymous_of_isModerator hmoderator) _
  rw [label_planned, decide_ne_omit_iff hdenied]
  exact Or.inl (standsAlone_of_isModerator hmoderator _ _)

theorem classify_onBehalfOf
    {request : Request} {moderator : Viewer} (hviewer : request.viewer.isSignedIn = true)
    (hmoderator : moderator.isModerator = true) {c : Comment}
    (hclass : request.classify c ≠ .suppressed) :
    (request.onBehalfOf moderator).classify c = request.classify c := by
  have hclass' := request.thresholds.classify_ne_suppressed_of_isModerator hmoderator c.score
  exact Thresholds.classify_eq_of_ne_suppressed
    (Viewer.isSignedIn_of_isModerator hmoderator) hviewer hclass' hclass

/-- A comment that another viewer is shown looks the same to a moderator, unless it is
suppressed for the other viewer. -/
theorem disposition_planned_onBehalfOf
    {request : Request} {moderator : Viewer} (hviewer : request.viewer.isSignedIn = true)
    (hmoderator : moderator.isModerator = true) {above : List Comment} {tree : Tree Comment}
    (hclass : request.classify tree.label ≠ .suppressed)
    (hshown : (request.planned above tree).label.disposition ≠ .omit) :
    ((request.onBehalfOf moderator).planned above tree).label.disposition =
      (request.planned above tree).label.disposition := by
  have hshown' : ((request.onBehalfOf moderator).planned above tree).label.disposition ≠ .omit :=
    planned_ne_omit_of_isModerator hmoderator above tree
  rw [disposition_planned hshown', disposition_planned hshown, reveals_onBehalfOf]
  exact appearance_congr (classify_onBehalfOf hviewer hmoderator hclass) _

/-- A deleted comment looks the same to everyone who is signed in. -/
theorem disposition_planned_of_deleted
    {request : Request} (hviewer : request.viewer.isSignedIn = true) (above : List Comment)
    {tree : Tree Comment} (hdeleted : tree.label.deleted = true) :
    (request.planned above tree).label.disposition = .deletedPlaceholder := by
  have hshown : (request.planned above tree).label.disposition ≠ .omit := by
    rw [ne_eq, planned_eq_omit_iff (Viewer.ne_anonymous_of_isSignedIn hviewer)]
    simp [hdeleted]
  rw [disposition_planned hshown, appearance_of_deleted hdeleted]

/-- One decision for a moderator in the place of another viewer who is signed in. -/
theorem planned_isWidenedTo
    {request : Request} {moderator : Viewer} (hviewer : request.viewer.isSignedIn = true)
    (hmoderator : moderator.isModerator = true) (above : List Comment) (tree : Tree Comment) :
    request.IsWidenedTo above.length tree.label (request.planned above tree).label
      ((request.onBehalfOf moderator).planned above tree).label := by
  have hclass' : (request.onBehalfOf moderator).classify tree.label ≠ .suppressed :=
    Thresholds.classify_ne_suppressed_of_isModerator hmoderator tree.label.score
  have hshown' : ((request.onBehalfOf moderator).planned above tree).label.disposition ≠ .omit :=
    planned_ne_omit_of_isModerator hmoderator above tree
  refine { shown := hshown', full := ?_, hidden := ?_, differing := ?_ }
  · intro hfull
    have hshown : (request.planned above tree).label.disposition ≠ .omit := by simp [hfull]
    have hlooks := hfull
    rw [disposition_planned hshown, appearance_eq_full_iff] at hlooks
    obtain ⟨-, hclass, -⟩ := hlooks
    have hfull' := disposition_planned_onBehalfOf hviewer hmoderator hclass hshown
    rw [hfull] at hfull'
    refine ⟨hfull', ?_⟩
    rw [Bool.eq_iff_iff, lowQuality_planned_iff, lowQuality_planned_iff,
      classify_onBehalfOf hviewer hmoderator hclass, hfull, hfull']
  · intro hhidden
    have hshown : (request.planned above tree).label.disposition ≠ .omit := by simp [hhidden]
    have hlooks := hhidden
    rw [disposition_planned hshown, appearance_eq_hiddenPlaceholder_iff] at hlooks
    obtain ⟨-, hclass, -⟩ := hlooks
    rw [disposition_planned_onBehalfOf hviewer hmoderator hclass hshown]
    exact hhidden
  · intro hdiffers
    have hdeleted : tree.label.deleted = false := by
      by_contra hgone
      rw [Bool.not_eq_false] at hgone
      apply hdiffers
      rw [disposition_planned_of_deleted hviewer above hgone]
      exact disposition_planned_of_deleted (Viewer.isSignedIn_of_isModerator hmoderator) above hgone
    refine ⟨hdeleted, ?_, ?_⟩
    · by_cases hclass : request.classify tree.label = .suppressed
      · exact Or.inl hclass
      · -- The two agree on what both are shown, so the other viewer is not shown the comment.
        right
        have homit : (request.planned above tree).label.disposition = .omit := by
          by_contra hshown
          exact hdiffers (disposition_planned_onBehalfOf hviewer hmoderator hclass hshown)
        obtain ⟨-, hchildless, hdrops⟩ :=
          (planned_eq_omit_iff (Viewer.ne_anonymous_of_isSignedIn hviewer) above tree).mp homit
        obtain ⟨hlow, hdepth, hpermalink, -⟩ := hdrops.resolve_left hclass
        exact ⟨homit, hchildless, hlow, hdepth, hpermalink⟩
    · rw [disposition_planned hshown']
      exact appearance_eq_full_or_hiddenPlaceholder hdeleted hclass' _

/-- Viewers of the same standing get equal plans.  A moderator is shown every comment, and
whatever another viewer who is signed in is shown in full, with the same mark, or is told
to be hidden; what a moderator sees otherwise is suppressed for the other viewer, or a
root of low quality that the other viewer is not shown. -/
theorem walk_isWidenedTo (request : Request) (thread : Thread) :
    (∀ viewer : Viewer, viewer.isSignedIn = request.viewer.isSignedIn →
      viewer.isModerator = request.viewer.isModerator →
        ((request.onBehalfOf viewer).walk thread).value = (request.walk thread).value) ∧
      (request.viewer.isSignedIn = true →
        ∀ moderator : Viewer, moderator.isModerator = true →
          ∀ address tree, thread.treeAt? address = some tree →
            ∃ planned moderated, (request.walk thread).value.treeAt? address = some planned ∧
              ((request.onBehalfOf moderator).walk thread).value.treeAt? address =
                some moderated ∧
              request.IsWidenedTo (thread.above address).length tree.label planned.label
                moderated.label) := by
  constructor
  · intro viewer hsignedIn hmoderator
    exact request.plan_onBehalfOf hsignedIn hmoderator thread
  · intro hviewer moderator hmoderator address tree htree
    simp only [value_walk, treeAt?_plan, htree, Option.map_some]
    exact ⟨_, _, rfl, rfl, planned_isWidenedTo hviewer hmoderator (thread.above address) tree⟩

end Request

/-- A comment of low quality and a suppressed one, for viewers without roles. -/
def downvoted : Thread :=
  .node { Comment.untouched 1 with score := -90 } .nil
    (.node { Comment.untouched 2 with score := -500 } .nil .nil)

theorem Request.walk_isWidenedTo_downvoted :
    let request : Request :=
      { thresholds := {}, viewer := .signedIn ⟨1⟩ .empty, permalink := none }
    let trusted : Viewer := .signedIn ⟨2⟩ (.ofList [.trustedUser])
    let admin : Viewer := .signedIn ⟨3⟩ (.ofList [.admin])
    trusted.isSignedIn = request.viewer.isSignedIn ∧
      trusted.isModerator = request.viewer.isModerator ∧
      ((request.onBehalfOf trusted).walk downvoted).value = (request.walk downvoted).value ∧
      request.viewer.isSignedIn = true ∧ admin.isModerator = true ∧
      ∃ tree planned moderated, downvoted.treeAt? [0] = some tree ∧
        (request.walk downvoted).value.treeAt? [0] = some planned ∧
        ((request.onBehalfOf admin).walk downvoted).value.treeAt? [0] = some moderated ∧
        request.IsWidenedTo 0 tree.label planned.label moderated.label := by
  intro request trusted admin
  obtain ⟨hsame, hwidened⟩ := request.walk_isWidenedTo downvoted
  have hmoderator : admin.isModerator = true := by decide
  obtain ⟨planned, moderated, hplanned, hmoderated, hdecisions⟩ :=
    hwidened rfl admin hmoderator [0] _ rfl
  exact ⟨rfl, rfl, hsame trusted rfl rfl, rfl, hmoderator, _, planned, moderated, rfl, hplanned,
    hmoderated, hdecisions⟩

end Discussion
