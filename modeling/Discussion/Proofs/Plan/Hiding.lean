import Discussion.Proofs.Plan.Appearance
import Mathlib.Data.List.Forall2

/-!
# Hiding comments

That a comment is hidden does not cascade.  Which comments are shown, and which have no
shown replies, is the same whatever comments are hidden; only text and the note that
stands for it change places.  Replies are touched by one thing alone, that a permalink
opened a hidden comment above them.  As long as the comment of the permalink is not
hidden or revealed itself, a decision changes only where the comment does.
-/

namespace Discussion

/-- Whether two comments differ at most in that one of them is hidden. -/
def Comment.EqUpToHiding (c other : Comment) : Prop :=
  ∃ hidden, other = { c with hidden := hidden }

/-- Whether two decisions differ at most in that one shows the text and the other one the
note that the comment is hidden. -/
structure Decision.EqUpToHiding (d other : Decision) : Prop where
  shown : d.disposition ≠ .omit ↔ other.disposition ≠ .omit
  childless : d.childless = other.childless
  differing : d.disposition ≠ other.disposition →
    (d.disposition = .full ∧ other.disposition = .hiddenPlaceholder) ∨
      (d.disposition = .hiddenPlaceholder ∧ other.disposition = .full)

/-- Whether two positions differ at most in that hidden comments are revealed at one. -/
structure Position.EqUpToHiding (place other : Position) : Prop where
  depth : place.depth = other.depth
  denied : place.denied = other.denied

theorem Comment.EqUpToHiding.eq
    {c other : Comment} (h : c.EqUpToHiding other) (hhidden : c.hidden = other.hidden) :
    other = c := by
  obtain ⟨hidden, rfl⟩ := h
  obtain rfl : c.hidden = hidden := hhidden
  rfl

namespace Request

variable {request : Request} {c other : Comment}

/-! ## One decision -/

theorem appearance_of_eqUpToHiding
    (h : c.EqUpToHiding other) {revealed revealed' : Bool}
    (hne : request.appearance revealed c ≠ request.appearance revealed' other) :
    (request.appearance revealed c = .full ∧
        request.appearance revealed' other = .hiddenPlaceholder) ∨
      (request.appearance revealed c = .hiddenPlaceholder ∧
        request.appearance revealed' other = .full) := by
  obtain ⟨hidden, rfl⟩ := h
  have hclass : request.classify { c with hidden := hidden } = request.classify c := rfl
  by_cases hgone : c.deleted = true ∨ request.classify c = .suppressed
  · have hlooks : request.appearance revealed c = .deletedPlaceholder := by
      simp [appearance, hgone]
    have hlooks' : request.appearance revealed' { c with hidden := hidden } =
        .deletedPlaceholder := by
      simp [appearance, hclass, hgone]
    exact absurd (hlooks.trans hlooks'.symm) hne
  · obtain ⟨hdeleted, hkept⟩ := not_or.mp hgone
    rw [Bool.not_eq_true] at hdeleted
    have hlooks := appearance_eq_full_or_hiddenPlaceholder hdeleted hkept revealed
    have hlooks' := appearance_eq_full_or_hiddenPlaceholder
      (c := { c with hidden := hidden }) hdeleted hkept revealed'
    rcases hlooks with h | h <;> rcases hlooks' with h' | h'
    · exact absurd (h.trans h'.symm) hne
    · exact Or.inl ⟨h, h'⟩
    · exact Or.inr ⟨h, h'⟩
    · exact absurd (h.trans h'.symm) hne

theorem enter_eqUpToHiding
    {place place' : Position} (hplace : place.EqUpToHiding place') (h : c.EqUpToHiding other) :
    (request.enter place c).EqUpToHiding (request.enter place' other) := by
  obtain ⟨hidden, rfl⟩ := h
  constructor
  · exact hplace.depth
  · change (place.denied || request.denies c) = (place'.denied || request.denies c)
    rw [hplace.denied]

theorem anyRoot_eq_of_eqUpToHiding
    {replies replies' : Plan} (h : replies.Matches Decision.EqUpToHiding replies') :
    replies.anyRoot Decision.isRendered = replies'.anyRoot Decision.isRendered := by
  rw [Bool.eq_iff_iff]
  constructor
  · apply h.anyRoot
    intro d d' hd
    rw [Decision.isRendered_iff, Decision.isRendered_iff]
    exact hd.shown.mp
  · apply h.swap.anyRoot
    intro d' d hd
    rw [Decision.isRendered_iff, Decision.isRendered_iff]
    exact hd.shown.mpr

/-- One decision after other comments were hidden. -/
theorem decide_eqUpToHiding
    {here here' : Position} (hhere : here.EqUpToHiding here') (h : c.EqUpToHiding other)
    {replies replies' : Plan} (hreplies : replies.Matches Decision.EqUpToHiding replies') :
    (request.decide here c replies).EqUpToHiding (request.decide here' other replies') := by
  have hdenied' := hhere.denied
  cases hdenied : here.denied with
  | true =>
      rw [hdenied, eq_comm] at hdenied'
      rw [decide_of_denied hdenied, decide_of_denied hdenied']
      exact { shown := Iff.rfl, childless := rfl, differing := fun hne => absurd rfl hne }
  | false =>
      rw [hdenied, eq_comm] at hdenied'
      have hchildless : (request.decide here c replies).childless =
          (request.decide here' other replies').childless := by
        rw [childless_decide hdenied, childless_decide hdenied',
          anyRoot_eq_of_eqUpToHiding hreplies]
      have homit : (request.decide here c replies).disposition = .omit ↔
          (request.decide here' other replies').disposition = .omit := by
        rw [decide_eq_omit_iff hdenied, decide_eq_omit_iff hdenied', hchildless, hhere.depth]
        obtain ⟨hidden, rfl⟩ := h
        exact Iff.rfl
      refine { shown := not_congr homit, childless := hchildless, differing := ?_ }
      intro hne
      have hshown : (request.decide here c replies).disposition ≠ .omit := by
        intro hnone
        exact hne (hnone.trans (homit.mp hnone).symm)
      rw [disposition_decide hshown, disposition_decide (mt homit.mpr hshown)] at hne ⊢
      exact appearance_of_eqUpToHiding h hne

/-! ## The comments on the way to a comment -/

/-- Hiding a comment that was not opened by its permalink changes nothing for the others. -/
theorem enter_eq_of_eqUpToHiding
    (h : c.EqUpToHiding other) (hopened : request.permalink = some c.id → c.hidden = other.hidden)
    (place : Position) :
    request.enter place c = request.enter place other := by
  by_cases hpermalink : request.permalink = some c.id
  · rw [h.eq (hopened hpermalink)]
  · obtain ⟨hidden, rfl⟩ := h
    have hreveals : ∀ c', c'.id = c.id → request.reveals c' = false := by
      intro c' hid
      simp [reveals, hid, hpermalink]
    rw [enter, enter, hreveals c rfl, hreveals { c with hidden := hidden } rfl]
    rfl

theorem foldl_descend_eq
    {above above' : List Comment}
    (h : List.Forall₂ (fun c c' => ∀ place, request.enter place c = request.enter place c')
      above above')
    (place : Position) :
    above.foldl request.descend place = above'.foldl request.descend place := by
  induction h generalizing place with
  | nil => rfl
  | cons hc _ ih =>
      rw [List.foldl_cons, List.foldl_cons, descend, descend, hc place]
      exact ih _

/-- What a comment inherits is untouched by the comments above it, as long as those of the
permalink are hidden as before. -/
theorem positionBelow_eq_of_eqUpToHiding
    {above above' : List Comment}
    (h : List.Forall₂ (fun c c' => c.EqUpToHiding c' ∧
      (request.permalink = some c.id → c.hidden = c'.hidden)) above above')
    (c : Comment) :
    request.positionBelow above c = request.positionBelow above' c := by
  rw [← enter_foldl_descend, ← enter_foldl_descend]
  congr 1
  apply foldl_descend_eq
  exact h.imp fun c c' hc => enter_eq_of_eqUpToHiding hc.1 hc.2

/-! ## Whole plans -/

theorem plan_eqUpToHiding
    (request : Request) {thread other : Thread} (h : thread.Matches Comment.EqUpToHiding other) :
    (request.plan thread).Matches Decision.EqUpToHiding (request.plan other) := by
  apply matches_plan Position.EqUpToHiding _ _ _ _ h
  · exact { depth := rfl, denied := rfl }
  · intro place place' c c' hplace hc
    exact enter_eqUpToHiding hplace hc
  · intro here here' hhere
    exact { hhere with depth := by simp [hhere.depth] }
  · intro here here' c c' replies replies' hhere hc hreplies
    exact decide_eqUpToHiding hhere hc hreplies

/-- If other comments are hidden and nothing else changes, then the same comments are
shown and the same ones have no shown replies; where two decisions differ, one shows the
text and the other one the note.  If moreover the comments of the permalink are hidden as
before, then the decision about a comment that is hidden as before is the same. -/
theorem walk_eqUpToHiding
    (request : Request) {thread other : Thread} (h : thread.Matches Comment.EqUpToHiding other) :
    (request.walk thread).value.Matches Decision.EqUpToHiding (request.walk other).value ∧
      (thread.Matches (fun c c' => request.permalink = some c.id → c.hidden = c'.hidden) other →
        ∀ address tree tree', thread.treeAt? address = some tree →
          other.treeAt? address = some tree' → tree.label.hidden = tree'.label.hidden →
            ((request.walk thread).value.treeAt? address).map Tree.label =
              ((request.walk other).value.treeAt? address).map Tree.label) := by
  rw [value_walk, value_walk]
  have hplans := request.plan_eqUpToHiding h
  refine ⟨hplans, ?_⟩
  intro hopened address tree tree' htree htree' hhidden
  obtain ⟨found, hfound, ⟨hlabel, -⟩, habove⟩ := (h.and hopened).exists_treeAt? htree
  obtain rfl := Option.some.inj (htree'.symm.trans hfound)
  have hplanned := treeAt?_plan request thread address
  have hplanned' := treeAt?_plan request other address
  rw [htree, Option.map_some] at hplanned
  rw [htree', Option.map_some] at hplanned'
  obtain ⟨found, hfound, hdecisions, -⟩ := hplans.exists_treeAt? hplanned
  obtain rfl := Option.some.inj (hplanned'.symm.trans hfound)
  have hhere := positionBelow_eq_of_eqUpToHiding habove tree.label
  have hchildless := hdecisions.childless
  rw [label_planned, label_planned, hlabel.eq hhidden, ← hhere] at hchildless
  rw [hplanned, hplanned', Option.map_some, Option.map_some, label_planned, label_planned,
    hlabel.eq hhidden, ← hhere, decide_eq_of_childless_eq hchildless]

end Request

/-- A comment with a number, hidden or not. -/
def Comment.veiled (id : UInt64) (hidden : Bool) : Comment :=
  { untouched id with hidden := hidden }

theorem Comment.veiled_eqUpToHiding (id : UInt64) (hidden hidden' : Bool) :
    (veiled id hidden).EqUpToHiding (veiled id hidden') :=
  ⟨hidden', rfl⟩

/-- A comment with two replies, both of them hidden. -/
def muted : Thread :=
  .node (.veiled 1 false) (.node (.veiled 2 true) .nil (.node (.veiled 3 true) .nil .nil)) .nil

/-- The same comments, with the root hidden in place of the last reply. -/
def remuted : Thread :=
  .node (.veiled 1 true) (.node (.veiled 2 true) .nil (.node (.veiled 3 false) .nil .nil)) .nil

theorem Request.walk_eqUpToHiding_remuted :
    let request : Request :=
      { thresholds := {}, viewer := .signedIn ⟨1⟩ .empty, permalink := some ⟨2⟩ }
    muted.Matches Comment.EqUpToHiding remuted ∧
      muted.Matches (fun c c' => request.permalink = some c.id → c.hidden = c'.hidden) remuted ∧
      (request.walk muted).value.Matches Decision.EqUpToHiding (request.walk remuted).value ∧
      ((request.walk muted).value.treeAt? [0, 0]).map Tree.label =
        ((request.walk remuted).value.treeAt? [0, 0]).map Tree.label := by
  intro request
  have h : muted.Matches Comment.EqUpToHiding remuted :=
    .node (Comment.veiled_eqUpToHiding 1 _ _)
      (.node (Comment.veiled_eqUpToHiding 2 _ _) .nil
        (.node (Comment.veiled_eqUpToHiding 3 _ _) .nil .nil))
      .nil
  have hopened : muted.Matches
      (fun c c' => request.permalink = some c.id → c.hidden = c'.hidden) remuted := by
    refine .node ?_ (.node ?_ .nil (.node ?_ .nil .nil)) .nil <;> decide
  obtain ⟨hplans, hsame⟩ := request.walk_eqUpToHiding h
  exact ⟨h, hopened, hplans, hsame hopened [0, 0] _ _ rfl rfl rfl⟩

end Discussion
