import Discussion.Proofs.Plan.Decision

/-!
# The rule table

Why a comment is shown as it is, read off the comments above it and the decisions
about its direct replies.  A comment at or below one that is barred to anonymous
viewers is withheld from them; for all others the rules are tried in order, and
the first that applies decides.  Every node of a plan obeys the table, whatever
the forest, the thresholds, the viewer and the permalink.
-/

namespace Discussion

/-- A rule: whether it applies to a comment, and how the comment is then shown. -/
structure Rule where
  applies : Bool
  shows : Disposition

/-- What the first rule that applies says. -/
def Rule.firstOf : List Rule → Option Disposition
  | [] => none
  | rule :: rules => if rule.applies then some rule.shows else firstOf rules

namespace Request

/-- Whether an anonymous viewer meets a barred comment on the way to a comment. -/
def Withholds (request : Request) (path : List Comment) : Prop :=
  request.viewer = .anonymous ∧ ∃ c ∈ path, c.isBarred = true

/-- Whether the permalink of a hidden comment lies on the way to a comment. -/
def isRevealedAlong (request : Request) (path : List Comment) : Bool :=
  path.any fun c => request.permalink == some c.id && c.hidden

/-- The rules for a comment below the comments of a path, in the order in which they are tried. -/
def rules (request : Request) (above : List Comment) (c : Comment) (childless : Bool) :
    List Rule :=
  let visibility := request.classify c
  [{ applies := c.deleted, shows := .deletedPlaceholder },
   { applies := visibility == .suppressed && childless, shows := .omit },
   { applies := visibility == .suppressed, shows := .deletedPlaceholder },
   { applies := visibility == .lowQuality && childless && above.isEmpty &&
       request.permalink.isNone && !request.viewer.isModerator,
     shows := .omit },
   { applies := c.hidden && !request.isRevealedAlong (above ++ [c]), shows := .hiddenPlaceholder },
   { applies := true, shows := .full }]

/-- What the table says of the decision about a comment below the comments of a
path, and of the decisions about its replies. -/
structure Ruled (request : Request) (above : List Comment) (c : Comment)
    (planned : Tree Decision) : Prop where
  withheld : request.Withholds (above ++ [c]) →
    planned.label.disposition = .omit ∧ planned.label.lowQuality = false ∧
      planned.label.childless = true
  childless : ¬request.Withholds (above ++ [c]) →
    (planned.label.childless = true ↔
      ∀ reply ∈ planned.children.roots, reply.label.disposition = .omit)
  disposition : ¬request.Withholds (above ++ [c]) →
    Rule.firstOf (request.rules above c planned.label.childless) =
      some planned.label.disposition
  lowQuality : ¬request.Withholds (above ++ [c]) →
    (planned.label.lowQuality = true ↔
      planned.label.disposition = .full ∧ request.classify c = .lowQuality)

theorem denied_positionBelow_iff
    {request : Request} {above : List Comment} {c : Comment} :
    (request.positionBelow above c).denied = true ↔ request.Withholds (above ++ [c]) := by
  simp only [positionBelow, List.any_eq_true, denies_iff, Withholds]
  constructor
  · rintro ⟨barred, hmem, hviewer, hbarred⟩
    exact ⟨hviewer, barred, hmem, hbarred⟩
  · rintro ⟨hviewer, barred, hmem, hbarred⟩
    exact ⟨barred, hmem, hviewer, hbarred⟩

theorem dropsWhenChildless_eq
    {request : Request} {c : Comment} (hclass : request.classify c ≠ .suppressed) (depth : Nat) :
    request.dropsWhenChildless depth c =
      (request.classify c == .lowQuality && depth == 0 && request.permalink.isNone &&
        !request.viewer.isModerator) := by
  unfold dropsWhenChildless
  cases hcase : request.classify c with
  | visible => rfl
  | lowQuality => rfl
  | suppressed => exact absurd hcase hclass

/-- The conditions of the rule for childless roots of low quality, without and
with the requirement that the comment is childless. -/
theorem dropsWhenChildless_and
    {request : Request} {c : Comment} (hclass : request.classify c ≠ .suppressed)
    (depth : Nat) (childless : Bool) :
    (request.classify c == .lowQuality && childless && depth == 0 &&
        request.permalink.isNone && !request.viewer.isModerator) =
      (childless && request.dropsWhenChildless depth c) := by
  rw [dropsWhenChildless_eq hclass]
  cases childless <;> simp

theorem firstOf_rules
    (request : Request) (above : List Comment) (c : Comment) (childless : Bool) :
    Rule.firstOf (request.rules above c childless) =
      some (request.disposition (request.positionBelow above c) childless c) := by
  have hrevealed : request.isRevealedAlong (above ++ [c]) =
      (request.positionBelow above c).revealed := rfl
  have hdepth : above.isEmpty = ((request.positionBelow above c).depth == 0) := by
    cases above <;> rfl
  by_cases hclass : request.classify c = .suppressed
  · simp only [Rule.firstOf, rules, disposition, dropsWhenChildless, hclass, apply_ite some]
    cases childless <;> simp
  · have hclass' : (request.classify c == .suppressed) = false := by simpa using hclass
    simp only [Rule.firstOf, rules, disposition, hrevealed, hdepth, hclass',
      dropsWhenChildless_and hclass, apply_ite some]
    simp

theorem ruled_planned (request : Request) (above : List Comment) (tree : Tree Comment) :
    request.Ruled above tree.label (request.planned above tree) := by
  -- Both halves of the table meet the decision of one position; what is shown of the
  -- replies enters through `anyRoot` alone.
  cases hdenied : (request.positionBelow above tree.label).denied with
  | true =>
      have hwithholds := denied_positionBelow_iff.mp hdenied
      have hlabel := request.label_planned above tree
      rw [decide_of_denied hdenied] at hlabel
      exact {
        withheld := fun _ => by rw [hlabel]; exact ⟨rfl, rfl, rfl⟩
        childless := fun h => absurd hwithholds h
        disposition := fun h => absurd hwithholds h
        lowQuality := fun h => absurd hwithholds h }
  | false =>
      have hwithholds : ¬request.Withholds (above ++ [tree.label]) := by
        intro h
        rw [denied_positionBelow_iff.mpr h] at hdenied
        cases hdenied
      have hlabel := request.label_planned above tree
      rw [decide_of_not_denied hdenied] at hlabel
      refine {
        withheld := fun h => absurd h hwithholds
        childless := fun _ => ?_
        disposition := fun _ => ?_
        lowQuality := fun _ => ?_ }
      · rw [hlabel]
        simp only [Bool.not_eq_true', Bool.eq_false_iff, ne_eq, Forest.anyRoot_iff]
        constructor
        · intro hnone reply hreply
          by_contra hshown
          exact hnone ⟨reply, hreply, Disposition.isRendered_iff.mpr hshown⟩
        · rintro hall ⟨reply, hreply, hshown⟩
          exact Disposition.isRendered_iff.mp hshown (hall reply hreply)
      · rw [hlabel]
        exact request.firstOf_rules above tree.label _
      · rw [hlabel]
        simp

/-! ## Plans obey the table -/

/-- A plan has the shape of the thread, names its comments in their places, and
every decision in it obeys the rule table. -/
theorem walk_obeys_rules (request : Request) (thread : Thread) :
    (request.walk thread).value.map Decision.comment = thread.map Comment.id ∧
      ∀ address planned, (request.walk thread).value.treeAt? address = some planned →
        ∃ tree, thread.treeAt? address = some tree ∧
          request.Ruled (thread.above address) tree.label planned := by
  rw [value_walk]
  refine ⟨request.map_comment_plan thread, ?_⟩
  intro address planned hplanned
  rw [treeAt?_plan] at hplanned
  obtain ⟨tree, htree, rfl⟩ := Option.map_eq_some_iff.mp hplanned
  exact ⟨tree, htree, request.ruled_planned (thread.above address) tree⟩

end Request

end Discussion
