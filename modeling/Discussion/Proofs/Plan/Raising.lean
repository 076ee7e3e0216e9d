import Discussion.Proofs.Plan.Appearance

/-!
# Raising scores

A higher score never takes a comment away.  The classes of the scores are monotone,
whatever the thresholds are, so a comment that stands on its own still does when scores
rise, and fewer comments are barred to anonymous viewers.  Step by step, whatever was
shown is shown, what was shown in full is shown in full, and no comment shown in full
gains the mark of low quality.
-/

namespace Discussion

/-- Whether a comment is another one with a score that is at least as high. -/
def Comment.IsRaisedTo (c raised : Comment) : Prop :=
  ∃ score, c.score ≤ score ∧ raised = { c with score := score }

/-- Whether a decision takes away nothing that another one shows. -/
structure Decision.IsKeptBy (d other : Decision) : Prop where
  shown : d.disposition ≠ .omit → other.disposition ≠ .omit
  full : d.disposition = .full → other.disposition = .full

/-- Whether a decision takes away nothing that another one shows, and adds no mark. -/
structure Decision.IsRaisedTo (d raised : Decision) : Prop extends d.IsKeptBy raised where
  unmarked : d.disposition = .full → raised.disposition = .full →
    raised.lowQuality = true → d.lowQuality = true

/-- Whether a position is another one where no more is denied. -/
structure Position.IsRaisedTo (place raised : Position) : Prop where
  depth : raised.depth = place.depth
  revealed : raised.revealed = place.revealed
  denied : raised.denied = true → place.denied = true

theorem Position.IsRaisedTo.denied_eq_false
    {place raised : Position} (h : place.IsRaisedTo raised) (hdenied : place.denied = false) :
    raised.denied = false := by
  by_contra hraised
  rw [Bool.not_eq_false] at hraised
  rw [h.denied hraised] at hdenied
  cases hdenied

theorem Decision.isRaisedTo_of_omit
    {d : Decision} (h : d.disposition = .omit) (raised : Decision) :
    d.IsRaisedTo raised where
  shown := fun hshown => absurd h hshown
  full := by simp [h]
  unmarked := by simp [h]

namespace Thresholds

variable {thresholds : Thresholds} {viewer : Viewer} {score raised : Int64}

theorem classify_eq_suppressed_of_le
    (hle : score ≤ raised) (h : thresholds.classify viewer raised = .suppressed) :
    thresholds.classify viewer score = .suppressed := by
  rw [classify_eq_suppressed_iff] at h ⊢
  rcases h with ⟨hanonymous, hneg⟩ | ⟨hsignedIn, hmoderator, hlow⟩
  · exact Or.inl ⟨hanonymous, Int64.lt_of_le_of_lt hle hneg⟩
  · exact Or.inr ⟨hsignedIn, hmoderator, Int64.lt_of_le_of_lt hle hlow⟩

theorem classify_eq_visible_of_le
    (hle : score ≤ raised) (h : thresholds.classify viewer score = .visible) :
    thresholds.classify viewer raised = .visible := by
  have hkept : thresholds.classify viewer raised ≠ .suppressed := by
    intro hsuppressed
    rw [classify_eq_suppressed_of_le hle hsuppressed] at h
    cases h
  cases hviewer : viewer.isSignedIn with
  | false =>
      obtain rfl := Viewer.isSignedIn_eq_false_iff.mp hviewer
      rw [classify_anonymous] at hkept ⊢
      split at hkept
      · exact absurd rfl hkept
      next hnonneg => rw [if_neg hnonneg]
  | true =>
      have hscore : thresholds.classify viewer score ≠ .suppressed := by simp [h]
      rw [classify_eq_ite_of_ne_suppressed hviewer hscore] at h
      rw [classify_eq_ite_of_ne_suppressed hviewer hkept, if_neg]
      intro hlow
      rw [if_pos (Int64.lt_of_le_of_lt hle hlow)] at h
      cases h

end Thresholds

namespace Request

variable {request : Request} {c raised : Comment}

theorem StandsAlone.of_isRaisedTo
    {depth : Nat} (halone : request.StandsAlone depth c) (h : c.IsRaisedTo raised) :
    request.StandsAlone depth raised := by
  obtain ⟨score, hle, rfl⟩ := h
  rcases halone with hdeleted | hvisible | ⟨hclass, hnotRoot⟩
  · exact Or.inl hdeleted
  · exact Or.inr (Or.inl (Thresholds.classify_eq_visible_of_le hle hvisible))
  · -- A comment of low quality may rise into the class of the visible, but never sinks.
    cases hraised : request.classify { c with score := score } with
    | visible => exact Or.inr (Or.inl hraised)
    | lowQuality => exact Or.inr (Or.inr ⟨hraised, hnotRoot⟩)
    | suppressed =>
        have hsuppressed : request.classify c = .suppressed :=
          Thresholds.classify_eq_suppressed_of_le hle hraised
        rw [hsuppressed] at hclass
        cases hclass

theorem denies_of_isRaisedTo
    (h : c.IsRaisedTo raised) (hdenies : request.denies raised = true) :
    request.denies c = true := by
  obtain ⟨score, hle, rfl⟩ := h
  rw [denies_iff] at hdenies ⊢
  obtain ⟨hviewer, hbarred⟩ := hdenies
  refine ⟨hviewer, ?_⟩
  simp only [Comment.isBarred, Comment.isNegative, Bool.and_eq_true, decide_eq_true_eq]
    at hbarred ⊢
  exact ⟨hbarred.1, Int64.lt_of_le_of_lt hle hbarred.2⟩

theorem classify_eq_lowQuality_of_isRaisedTo
    (h : c.IsRaisedTo raised) (hkept : request.classify c ≠ .suppressed)
    (hclass : request.classify raised = .lowQuality) :
    request.classify c = .lowQuality := by
  obtain ⟨score, hle, rfl⟩ := h
  cases hscore : request.classify c with
  | lowQuality => rfl
  | suppressed => exact absurd hscore hkept
  | visible =>
      have hvisible : request.classify { c with score := score } = .visible :=
        Thresholds.classify_eq_visible_of_le hle hscore
      rw [hvisible] at hclass
      cases hclass

theorem enter_isRaisedTo
    {place place' : Position} (hplace : place.IsRaisedTo place') (h : c.IsRaisedTo raised) :
    (request.enter place c).IsRaisedTo (request.enter place' raised) := by
  constructor
  · exact hplace.depth
  · obtain ⟨score, _, rfl⟩ := h
    change (place'.revealed || request.reveals c) = (place.revealed || request.reveals c)
    rw [hplace.revealed]
  · change (place'.denied || request.denies raised) = true →
      (place.denied || request.denies c) = true
    rw [Bool.or_eq_true, Bool.or_eq_true]
    exact Or.imp hplace.denied (denies_of_isRaisedTo h)

theorem appearance_eq_full_of_isRaisedTo
    {revealed : Bool} (h : c.IsRaisedTo raised)
    (hfull : request.appearance revealed c = .full) :
    request.appearance revealed raised = .full := by
  obtain ⟨score, hle, rfl⟩ := h
  rw [appearance_eq_full_iff] at hfull ⊢
  obtain ⟨hdeleted, hclass, hrevealed⟩ := hfull
  refine ⟨hdeleted, ?_, hrevealed⟩
  intro hsuppressed
  exact hclass (Thresholds.classify_eq_suppressed_of_le hle hsuppressed)

/-- The step for what is shown: a comment stands on its own, or some reply is shown. -/
theorem decide_ne_omit_of_isRaisedTo
    {here here' : Position} (hhere : here.IsRaisedTo here') (hdenied : here.denied = false)
    (h : c.IsRaisedTo raised) {replies replies' : Plan}
    (hreplies : replies.Matches Decision.IsRaisedTo replies')
    (hshown : (request.decide here c replies).disposition ≠ .omit) :
    (request.decide here' raised replies').disposition ≠ .omit := by
  have hdenied' := hhere.denied_eq_false hdenied
  rw [decide_ne_omit_iff hdenied] at hshown
  rw [decide_ne_omit_iff hdenied', hhere.depth]
  apply hshown.imp
  · intro halone
    exact halone.of_isRaisedTo h
  · apply hreplies.anyRoot
    intro d d' hd
    rw [Decision.isRendered_iff, Decision.isRendered_iff]
    exact hd.shown

/-- One decision after scores have risen. -/
theorem decide_isRaisedTo
    {here here' : Position} (hhere : here.IsRaisedTo here') (h : c.IsRaisedTo raised)
    {replies replies' : Plan} (hreplies : replies.Matches Decision.IsRaisedTo replies') :
    (request.decide here c replies).IsRaisedTo (request.decide here' raised replies') := by
  cases hdenied : here.denied with
  | true =>
      apply Decision.isRaisedTo_of_omit
      rw [decide_of_denied hdenied]
  | false =>
      have hshown : (request.decide here c replies).disposition ≠ .omit →
          (request.decide here' raised replies').disposition ≠ .omit :=
        decide_ne_omit_of_isRaisedTo hhere hdenied h hreplies
      have hlooks : (request.decide here c replies).disposition = .full →
          request.appearance here.revealed c = .full := by
        intro hfull
        have hkept : (request.decide here c replies).disposition ≠ .omit := by simp [hfull]
        rw [← disposition_decide hkept]
        exact hfull
      refine { shown := hshown, full := ?_, unmarked := ?_ }
      · intro hfull
        rw [disposition_decide (hshown (by simp [hfull])), hhere.revealed]
        exact appearance_eq_full_of_isRaisedTo h (hlooks hfull)
      · intro hfull _ hmarked
        rw [lowQuality_decide_iff] at hmarked ⊢
        have hkept := (appearance_eq_full_iff.mp (hlooks hfull)).2.1
        exact ⟨hfull, classify_eq_lowQuality_of_isRaisedTo h hkept hmarked.2⟩

/-! ## Whole plans -/

/-- If the scores of comments rise and nothing else changes, then every comment that was
shown is shown, every comment that was shown in full is shown in full, and a comment that
is then marked as of low quality was so before, whoever looks. -/
theorem walk_isRaisedTo
    (request : Request) {thread raised : Thread} (h : thread.Matches Comment.IsRaisedTo raised) :
    (request.walk thread).value.Matches Decision.IsRaisedTo (request.walk raised).value := by
  rw [value_walk, value_walk]
  apply matches_plan Position.IsRaisedTo _ _ _ _ h
  · exact { depth := rfl, revealed := rfl, denied := id }
  · intro place place' c c' hplace hc
    exact enter_isRaisedTo hplace hc
  · intro here here' hhere
    exact { hhere with depth := by simp [hhere.depth] }
  · intro here here' c c' replies replies' hhere hc hreplies
    exact decide_isRaisedTo hhere hc hreplies

end Request

/-- A comment with a number and a score. -/
def Comment.scored (id : UInt64) (score : Int64) : Comment :=
  { untouched id with score := score }

theorem Comment.scored_isRaisedTo
    (id : UInt64) {score raised : Int64} (hle : score ≤ raised) :
    (scored id score).IsRaisedTo (scored id raised) :=
  ⟨raised, hle, rfl⟩

/-- A suppressed comment with a reply, and a comment of low quality. -/
def sunken : Thread :=
  .node (.scored 1 (-500)) (.node (.scored 2 0) .nil .nil) (.node (.scored 3 (-90)) .nil .nil)

/-- The same comments after votes. -/
def risen : Thread :=
  .node (.scored 1 (-80)) (.node (.scored 2 0) .nil .nil) (.node (.scored 3 4) .nil .nil)

theorem Request.walk_isRaisedTo_risen :
    let request : Request :=
      { thresholds := {}, viewer := .signedIn ⟨1⟩ .empty, permalink := none }
    sunken.Matches Comment.IsRaisedTo risen ∧
      (request.walk sunken).value.Matches Decision.IsRaisedTo (request.walk risen).value := by
  intro request
  have hfirst := Comment.scored_isRaisedTo 1 (show (-500 : Int64) ≤ -80 by decide)
  have hreply := Comment.scored_isRaisedTo 2 (show (0 : Int64) ≤ 0 by decide)
  have hsecond := Comment.scored_isRaisedTo 3 (show (-90 : Int64) ≤ 4 by decide)
  have h : sunken.Matches Comment.IsRaisedTo risen :=
    .node hfirst (.node hreply .nil .nil) (.node hsecond .nil .nil)
  exact ⟨h, request.walk_isRaisedTo h⟩

end Discussion
