import Discussion.Proofs.Plan.Raising
import Discussion.Proofs.Plan.Standing
import Discussion.Settings.Basic

/-!
# Signing in

Anonymous viewers are measured by zero, others by the thresholds of the site.  So where
the thresholds of a site lie above zero, a viewer who signs in may lose a comment: one
that is suppressed, or a root of low quality without shown replies.  Nothing else is ever
lost, and on a site with valid settings nothing at all is lost if and only if the low
quality threshold is not above zero.
-/

namespace Discussion

theorem Settings.suppression_lt_lowQuality
    {settings : Settings} (h : settings.validate = .ok ()) :
    settings.thresholds.suppression < settings.thresholds.lowQuality := by
  unfold validate at h
  dsimp only at h
  split at h
  · cases h
  next hordered => exact Int64.not_le.mp hordered

namespace Request

/-- Whether an anonymous viewer may be shown a comment at a depth that is kept from the
viewer of a request, where replies to it are shown or not. -/
structure Forfeits (request : Request) (depth : Nat) (c : Comment) (childless : Bool) :
    Prop where
  notModerator : request.viewer.isModerator = false
  notDeleted : c.deleted = false
  nonneg : 0 ≤ c.score
  low : c.score < request.thresholds.suppression ∨
    (c.score < request.thresholds.lowQuality ∧ depth = 0 ∧ request.permalink = none ∧
      childless = true)

/-- Whether what an anonymous viewer is shown of a comment is forfeited wherever the
viewer of a request is not shown it. -/
structure KeepsUnlessForfeited (request : Request) (depth : Nat) (c : Comment)
    (anonymous d : Decision) : Prop where
  shown : anonymous.disposition ≠ .omit → d.disposition = .omit →
    d.childless = true ∧ request.Forfeits depth c d.childless
  full : anonymous.disposition = .full → d.disposition ≠ .full →
    request.Forfeits depth c d.childless

/-! ## One decision -/

theorem not_isBarred_of_shown
    {request : Request} (hviewer : request.viewer = .anonymous)
    {above : List Comment} {tree : Tree Comment}
    (hshown : (request.planned above tree).label.disposition ≠ .omit) :
    tree.label.isBarred = false := by
  by_contra hbarred
  rw [Bool.not_eq_false] at hbarred
  have hdenied : (request.positionBelow above tree.label).denied = true := by
    have hdenies := denies_iff.mpr ⟨hviewer, hbarred⟩
    simp [positionBelow, hdenies]
  rw [label_planned, decide_of_denied hdenied] at hshown
  exact hshown rfl

/-- A comment that is suppressed, or dropped for its low quality, is forfeited if an
anonymous viewer is shown it. -/
theorem forfeits_of_classify
    {request : Request} (hviewer : request.viewer.isSignedIn = true) {depth : Nat}
    {c : Comment} {childless : Bool} (hdeleted : c.deleted = false)
    (hbarred : c.isBarred = false)
    (hclass : request.classify c = .suppressed ∨
      (request.classify c = .lowQuality ∧ depth = 0 ∧ request.permalink = none ∧
        request.viewer.isModerator = false ∧ childless = true)) :
    request.Forfeits depth c childless := by
  have hnonneg : 0 ≤ c.score := by
    simpa [Comment.isBarred, Comment.isNegative, hdeleted] using hbarred
  rcases hclass with hsuppressed | ⟨hlow, hdepth, hpermalink, hmoderator, hchildless⟩
  · rw [classify, Thresholds.classify_eq_suppressed_iff] at hsuppressed
    rcases hsuppressed with ⟨hanonymous, _⟩ | ⟨_, hmoderator, hscore⟩
    · exact absurd hanonymous (Viewer.ne_anonymous_of_isSignedIn hviewer)
    · exact ⟨hmoderator, hdeleted, hnonneg, Or.inl hscore⟩
  · have hkept : request.classify c ≠ .suppressed := by simp [hlow]
    have hscore : c.score < request.thresholds.lowQuality := by
      by_contra hhigh
      rw [classify, Thresholds.classify_eq_ite_of_ne_suppressed hviewer hkept,
        if_neg hhigh] at hlow
      cases hlow
    exact ⟨hmoderator, hdeleted, hnonneg, Or.inr ⟨hscore, hdepth, hpermalink, hchildless⟩⟩

theorem forfeits_of_omit
    {request : Request} (hviewer : request.viewer.isSignedIn = true) {above : List Comment}
    {tree : Tree Comment} (hbarred : tree.label.isBarred = false)
    (homit : (request.planned above tree).label.disposition = .omit) :
    (request.planned above tree).label.childless = true ∧
      request.Forfeits above.length tree.label (request.planned above tree).label.childless := by
  obtain ⟨hdeleted, hchildless, hclass⟩ :=
    (planned_eq_omit_iff (Viewer.ne_anonymous_of_isSignedIn hviewer) above tree).mp homit
  refine ⟨hchildless, forfeits_of_classify hviewer hdeleted hbarred ?_⟩
  apply hclass.imp_right
  rintro ⟨hlow, hdepth, hpermalink, hmoderator⟩
  exact ⟨hlow, hdepth, hpermalink, hmoderator, hchildless⟩

theorem planned_keepsUnlessForfeited
    {request : Request} (hviewer : request.viewer.isSignedIn = true)
    (above : List Comment) (tree : Tree Comment) :
    request.KeepsUnlessForfeited above.length tree.label
      ((request.onBehalfOf .anonymous).planned above tree).label
      (request.planned above tree).label := by
  constructor
  · intro hshown homit
    have hbarred := not_isBarred_of_shown (viewer_onBehalfOf request .anonymous) hshown
    exact forfeits_of_omit hviewer hbarred homit
  · intro hfull hnotFull
    have hshown : ((request.onBehalfOf .anonymous).planned above tree).label.disposition ≠
        .omit := by simp [hfull]
    have hbarred := not_isBarred_of_shown (viewer_onBehalfOf request .anonymous) hshown
    by_cases homit : (request.planned above tree).label.disposition = .omit
    · exact (forfeits_of_omit hviewer hbarred homit).2
    · -- A comment that is shown, and not in full as it is to others, is suppressed.
      rw [disposition_planned hshown, appearance_eq_full_iff] at hfull
      obtain ⟨hdeleted, -, hrevealed⟩ := hfull
      apply forfeits_of_classify hviewer hdeleted hbarred
      left
      by_contra hclass
      apply hnotFull
      rw [disposition_planned homit, appearance_eq_full_iff]
      exact ⟨hdeleted, hclass, hrevealed⟩

/-- Nothing is forfeited where the thresholds do not exceed zero. -/
theorem not_forfeits
    {request : Request} (hordered : request.thresholds.suppression < request.thresholds.lowQuality)
    (hzero : request.thresholds.lowQuality ≤ 0) (depth : Nat) (c : Comment) (childless : Bool) :
    ¬request.Forfeits depth c childless := by
  intro h
  have hhigh : request.thresholds.lowQuality ≤ c.score := Int64.le_trans hzero h.nonneg
  rcases h.low with hscore | ⟨hscore, _⟩
  · have hlow := Int64.lt_of_le_of_lt hhigh hscore
    exact Int64.lt_irrefl (Int64.lt_trans hordered hlow)
  · exact Int64.lt_irrefl (Int64.lt_of_le_of_lt hhigh hscore)

/-! ## Whole plans -/

theorem plan_isKeptBy
    {request : Request} (hviewer : request.viewer.isSignedIn = true)
    (hordered : request.thresholds.suppression < request.thresholds.lowQuality)
    (hzero : request.thresholds.lowQuality ≤ 0) (thread : Thread) :
    ((request.onBehalfOf .anonymous).plan thread).Matches Decision.IsKeptBy
      (request.plan thread) := by
  apply Forest.matches_of_treeAt?
  intro address
  rw [treeAt?_plan, treeAt?_plan]
  cases thread.treeAt? address with
  | none => exact .none
  | some tree =>
      have hkeeps := planned_keepsUnlessForfeited hviewer (thread.above address) tree
      have hnone := not_forfeits hordered hzero
      refine .some { shown := ?_, full := ?_ }
      · intro hshown homit
        exact hnone _ _ _ (hkeeps.shown hshown homit).2
      · intro hfull
        by_contra hnotFull
        exact hnone _ _ _ (hkeeps.full hfull hnotFull)

end Request

/-! ## Sites -/

namespace Request

theorem planned_untouched_ne_omit
    {request : Request} (hviewer : request.viewer = .anonymous) :
    (request.planned [] ⟨.untouched 1, .nil⟩).label.disposition ≠ .omit := by
  have hnotBarred : (Comment.untouched 1).isBarred = false := by decide
  have hclass := classify_of_not_barred hviewer rfl hnotBarred
  have hdenied : (request.positionBelow [] (.untouched 1)).denied = false := by
    by_contra hdenied
    rw [Bool.not_eq_false] at hdenied
    simp [positionBelow, denies_iff, hnotBarred] at hdenied
  rw [label_planned, decide_ne_omit_iff hdenied]
  exact Or.inl (Or.inr (Or.inl hclass))

theorem planned_untouched_eq_omit
    {request : Request} (hviewer : request.viewer.isSignedIn = true)
    (hmoderator : request.viewer.isModerator = false) (hpermalink : request.permalink = none)
    (hzero : 0 < request.thresholds.lowQuality) :
    (request.planned [] ⟨.untouched 1, .nil⟩).label.disposition = .omit := by
  have hnamed := Viewer.ne_anonymous_of_isSignedIn hviewer
  have hchildless : (request.planned [] ⟨.untouched 1, .nil⟩).label.childless = true := by
    rw [label_planned, childless_decide (any_denies_eq_false hnamed _)]
    rfl
  rw [planned_eq_omit_iff hnamed]
  refine ⟨rfl, hchildless, ?_⟩
  by_cases hclass : request.classify (.untouched 1) = .suppressed
  · exact Or.inl hclass
  · right
    refine ⟨?_, rfl, hpermalink, hmoderator⟩
    rw [classify, Thresholds.classify_eq_ite_of_ne_suppressed hviewer hclass]
    exact if_pos hzero

/-- Where the low quality threshold exceeds zero, an anonymous viewer is shown a comment
that a viewer without roles is not. -/
theorem not_plan_isKeptBy
    {thresholds : Thresholds} (hzero : 0 < thresholds.lowQuality) (user : UserId) :
    let request : Request :=
      { thresholds := thresholds, viewer := .signedIn user .empty, permalink := none }
    let thread : Thread := .node (.untouched 1) .nil .nil
    ¬((request.onBehalfOf .anonymous).plan thread).Matches Decision.IsKeptBy
      (request.plan thread) := by
  intro request thread h
  have hanonymous := treeAt?_plan (request.onBehalfOf .anonymous) thread [0]
  have hnamed := treeAt?_plan request thread [0]
  obtain ⟨planned, hplanned, hkept, -⟩ := h.exists_treeAt? hanonymous
  obtain rfl := Option.some.inj (hplanned.symm.trans hnamed)
  exact hkept.shown (planned_untouched_ne_omit rfl) (planned_untouched_eq_omit rfl rfl rfl hzero)

end Request

/-- What signing in costs on a site: what is lost is forfeited, and nothing is lost if and
only if the low quality threshold does not exceed zero. -/
structure Settings.KeepsOnSigningIn (settings : Settings) : Prop where
  unlessForfeited : ∀ request : Request, request.thresholds = settings.thresholds →
    request.viewer.isSignedIn = true →
      ∀ thread address tree, thread.treeAt? address = some tree →
        ∃ anonymous planned,
          ((request.onBehalfOf .anonymous).walk thread).value.treeAt? address = some anonymous ∧
          (request.walk thread).value.treeAt? address = some planned ∧
          request.KeepsUnlessForfeited (thread.above address).length tree.label
            anonymous.label planned.label
  everything_iff : (∀ request : Request, request.thresholds = settings.thresholds →
      request.viewer.isSignedIn = true → ∀ thread,
        ((request.onBehalfOf .anonymous).walk thread).value.Matches Decision.IsKeptBy
          (request.walk thread).value) ↔
    settings.thresholds.lowQuality ≤ 0

/-- On a site with valid settings, signing in costs no more than what is forfeited. -/
theorem Settings.keepsOnSigningIn
    {settings : Settings} (h : settings.validate = .ok ()) :
    settings.KeepsOnSigningIn := by
  have hordered := suppression_lt_lowQuality h
  constructor
  · intro request _ hviewer thread address tree htree
    simp only [Request.value_walk, Request.treeAt?_plan, htree, Option.map_some]
    exact ⟨_, _, rfl, rfl,
      Request.planned_keepsUnlessForfeited hviewer (thread.above address) tree⟩
  · constructor
    · intro hall
      by_contra hzero
      exact Request.not_plan_isKeptBy (Int64.not_le.mp hzero) ⟨1⟩ (hall _ rfl rfl _)
    · intro hzero request hthresholds hviewer thread
      rw [← hthresholds] at hordered hzero
      exact Request.plan_isKeptBy hviewer hordered hzero thread

/-- A site with valid settings that only shows viewers what was voted up. -/
def votedUp : Settings where
  thresholds := { suppression := 1, lowQuality := 2 }

theorem keepsOnSigningIn_votedUp : votedUp.validate = .ok () ∧ votedUp.KeepsOnSigningIn := by
  have hvalid : votedUp.validate = .ok () := by decide
  exact ⟨hvalid, Settings.keepsOnSigningIn hvalid⟩

/-- On that site a viewer who signs in loses what nobody voted on. -/
theorem walk_omits_untouched_votedUp :
    let request : Request :=
      { thresholds := votedUp.thresholds, viewer := .signedIn ⟨1⟩ .empty, permalink := none }
    let thread : Thread := .node (.untouched 1) .nil .nil
    votedUp.validate = .ok () ∧ request.viewer.isSignedIn = true ∧
      (((request.onBehalfOf .anonymous).walk thread).value.treeAt? [0]).map
          (fun planned => planned.label.disposition) = some .full ∧
      ((request.walk thread).value.treeAt? [0]).map
          (fun planned => planned.label.disposition) = some .omit := by
  intro request thread
  refine ⟨by decide, rfl, ?_, ?_⟩
  · rw [Request.value_walk, Request.treeAt?_plan]
    decide
  · rw [Request.value_walk, Request.treeAt?_plan]
    decide

end Discussion
