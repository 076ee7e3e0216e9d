import Discussion.Proofs.Forest.Matching
import Discussion.Proofs.Plan.Presence

/-!
# How a comment looks

Whether a comment is shown depends on the replies below it.  How it looks once it is
shown does not: only the comment itself, its class for the viewer, and whether hidden
comments are revealed where it stands, have a part in that.

The last section sets two walks side by side.  What one pair of decisions keeps, from
the places of two comments and from the plans for their replies, two whole plans keep.
-/

namespace Discussion

/-- A comment with a number, that nobody voted on and nobody hid. -/
def Comment.untouched (id : UInt64) : Comment where
  id := ⟨id⟩
  commentable := { kind := .article, id := 1 }
  user := ⟨1⟩
  createdAt := .epoch

namespace Request

/-! ## The looks of a shown comment -/

/-- How a comment looks if it is shown, where hidden comments are revealed or not. -/
def appearance (request : Request) (revealed : Bool) (c : Comment) : Disposition :=
  if c.deleted || request.classify c == .suppressed then .deletedPlaceholder
  else if c.hidden && !revealed then .hiddenPlaceholder
  else .full

theorem appearance_eq_full_iff {request : Request} {revealed : Bool} {c : Comment} :
    request.appearance revealed c = .full ↔
      c.deleted = false ∧ request.classify c ≠ .suppressed ∧
        (c.hidden = true → revealed = true) := by
  unfold appearance
  cases c.deleted <;> cases request.classify c <;> cases c.hidden <;> cases revealed <;> simp

theorem appearance_eq_hiddenPlaceholder_iff
    {request : Request} {revealed : Bool} {c : Comment} :
    request.appearance revealed c = .hiddenPlaceholder ↔
      c.deleted = false ∧ request.classify c ≠ .suppressed ∧
        c.hidden = true ∧ revealed = false := by
  unfold appearance
  cases c.deleted <;> cases request.classify c <;> cases c.hidden <;> cases revealed <;> simp

/-- A comment that is neither deleted nor suppressed shows its text or who hid it. -/
theorem appearance_eq_full_or_hiddenPlaceholder
    {request : Request} {c : Comment} (hdeleted : c.deleted = false)
    (hclass : request.classify c ≠ .suppressed) (revealed : Bool) :
    request.appearance revealed c = .full ∨
      request.appearance revealed c = .hiddenPlaceholder := by
  rw [appearance_eq_full_iff, appearance_eq_hiddenPlaceholder_iff]
  cases c.hidden <;> cases revealed <;> simp [hdeleted, hclass]

theorem appearance_of_deleted
    {request : Request} {c : Comment} (hdeleted : c.deleted = true) (revealed : Bool) :
    request.appearance revealed c = .deletedPlaceholder := by
  simp [appearance, hdeleted]

/-- Of what the request says, only the class of the comment matters. -/
theorem appearance_congr
    {request other : Request} {c : Comment} (hclass : request.classify c = other.classify c)
    (revealed : Bool) :
    request.appearance revealed c = other.appearance revealed c := by
  simp only [appearance, hclass]

/-! ## Decisions -/

theorem disposition_decide
    {request : Request} {here : Position} {c : Comment} {replies : Plan}
    (hshown : (request.decide here c replies).disposition ≠ .omit) :
    (request.decide here c replies).disposition = request.appearance here.revealed c := by
  cases hdenied : here.denied with
  | true =>
      rw [decide_of_denied hdenied] at hshown
      exact absurd rfl hshown
  | false =>
      rw [decide_of_not_denied hdenied] at hshown ⊢
      dsimp only at hshown ⊢
      have hshows := request.shows_disposition here (!replies.anyRoot Decision.isRendered) c
      generalize request.disposition here _ c = disposition at hshown hshows ⊢
      cases hshows with
      | deleted hdeleted => simp [appearance, hdeleted]
      | dropped _ _ _ => exact absurd rfl hshown
      | suppressed _ _ hclass => simp [appearance, hclass]
      | hidden hdeleted _ hclass hhidden hrevealed =>
          exact (appearance_eq_hiddenPlaceholder_iff.mpr
            ⟨hdeleted, hclass, hhidden, hrevealed⟩).symm
      | full hdeleted _ hclass hrevealed =>
          exact (appearance_eq_full_iff.mpr ⟨hdeleted, hclass, hrevealed⟩).symm

theorem lowQuality_decide_iff
    {request : Request} {here : Position} {c : Comment} {replies : Plan} :
    (request.decide here c replies).lowQuality = true ↔
      (request.decide here c replies).disposition = .full ∧
        request.classify c = .lowQuality := by
  cases hdenied : here.denied with
  | true => simp [decide_of_denied hdenied]
  | false => simp [decide_of_not_denied hdenied]

theorem childless_decide
    {request : Request} {here : Position} (h : here.denied = false)
    (c : Comment) (replies : Plan) :
    (request.decide here c replies).childless = !replies.anyRoot Decision.isRendered := by
  rw [decide_of_not_denied h]

theorem dropsWhenChildless_iff {request : Request} {depth : Nat} {c : Comment} :
    request.dropsWhenChildless depth c = true ↔
      request.classify c = .suppressed ∨
        (request.classify c = .lowQuality ∧ depth = 0 ∧ request.permalink = none ∧
          request.viewer.isModerator = false) := by
  unfold dropsWhenChildless
  cases request.classify c <;> simp [and_assoc]

/-- Why a comment is left out for a viewer who was not denied it. -/
theorem decide_eq_omit_iff
    {request : Request} {here : Position} (h : here.denied = false)
    {c : Comment} {replies : Plan} :
    (request.decide here c replies).disposition = .omit ↔
      c.deleted = false ∧ (request.decide here c replies).childless = true ∧
        (request.classify c = .suppressed ∨
          (request.classify c = .lowQuality ∧ here.depth = 0 ∧ request.permalink = none ∧
            request.viewer.isModerator = false)) := by
  rw [decide_of_not_denied h, ← dropsWhenChildless_iff]
  exact disposition_eq_omit_iff

/-- A decision depends on the replies through whether any of them is shown. -/
theorem decide_eq_of_childless_eq
    {request : Request} {here : Position} {c : Comment} {replies replies' : Plan}
    (h : (request.decide here c replies).childless =
      (request.decide here c replies').childless) :
    request.decide here c replies = request.decide here c replies' := by
  cases hdenied : here.denied with
  | true => rw [decide_of_denied hdenied, decide_of_denied hdenied]
  | false =>
      rw [childless_decide hdenied, childless_decide hdenied] at h
      rw [decide_of_not_denied hdenied, decide_of_not_denied hdenied, h]

/-! ## Decisions at an address -/

theorem disposition_planned
    {request : Request} {above : List Comment} {tree : Tree Comment}
    (hshown : (request.planned above tree).label.disposition ≠ .omit) :
    (request.planned above tree).label.disposition =
      request.appearance ((above ++ [tree.label]).any request.reveals) tree.label :=
  disposition_decide hshown

theorem lowQuality_planned_iff
    {request : Request} {above : List Comment} {tree : Tree Comment} :
    (request.planned above tree).label.lowQuality = true ↔
      (request.planned above tree).label.disposition = .full ∧
        request.classify tree.label = .lowQuality :=
  lowQuality_decide_iff

/-- Why a comment is left out for a viewer who is signed in. -/
theorem planned_eq_omit_iff
    {request : Request} (hviewer : request.viewer ≠ .anonymous)
    (above : List Comment) (tree : Tree Comment) :
    (request.planned above tree).label.disposition = .omit ↔
      tree.label.deleted = false ∧ (request.planned above tree).label.childless = true ∧
        (request.classify tree.label = .suppressed ∨
          (request.classify tree.label = .lowQuality ∧ above.length = 0 ∧
            request.permalink = none ∧ request.viewer.isModerator = false)) :=
  decide_eq_omit_iff (any_denies_eq_false hviewer _)

/-! ## Two walks side by side -/

/-- What is kept from place to place, and by every pair of decisions, holds of the two
plans as a whole. -/
theorem matches_plan
    {request other : Request} (place : Position → Position → Prop)
    {r : Comment → Comment → Prop} {s : Decision → Decision → Prop} (htop : place {} {})
    (henter : ∀ {inherited inherited' c c'}, place inherited inherited' → r c c' →
      place (request.enter inherited c) (other.enter inherited' c'))
    (hbelow : ∀ {here here'}, place here here' →
      place { here with depth := here.depth + 1 } { here' with depth := here'.depth + 1 })
    (hdecide : ∀ {here here' c c' replies replies'}, place here here' → r c c' →
      Forest.Matches s replies replies' →
        s (request.decide here c replies) (other.decide here' c' replies'))
    {thread thread' : Thread} (h : thread.Matches r thread') :
    (request.plan thread).Matches s (other.plan thread') := by
  rw [plan_eq, plan_eq]
  apply h.decorate _ _ htop
  · intro inherited inherited' c c' hinherited hc
    exact hbelow (henter hinherited hc)
  · intro inherited inherited' c c' replies replies' hinherited hc hreplies
    exact hdecide (henter hinherited hc) hc hreplies

end Request

end Discussion
