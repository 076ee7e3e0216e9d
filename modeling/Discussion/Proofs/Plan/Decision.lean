import Discussion.Plan.Eligibility
import Discussion.Proofs.Forest.Address

/-!
# Decisions at addresses

What a plan holds at an address: the decision about the comment there, made from
the comments above it and from the plan for its replies.  The position that the
comments hand down has a closed form, so that the decision depends on the path to
the comment and not on how the thread was walked.  The last sections say which
comments fall into which class, and when a comment is left out, replaced by a
note of its author's, or shown in full.
-/

namespace Discussion

/-- Whether anonymous viewers may see neither the comment nor any reply to it. -/
def Comment.isBarred (c : Comment) : Bool :=
  !c.deleted && c.isNegative

theorem Viewer.isSignedIn_eq_false_iff {viewer : Viewer} :
    viewer.isSignedIn = false ↔ viewer = .anonymous := by
  cases viewer <;> simp [isSignedIn]

theorem Viewer.ne_anonymous_of_isModerator
    {viewer : Viewer} (h : viewer.isModerator = true) :
    viewer ≠ .anonymous := by
  rintro rfl
  cases h

theorem Disposition.isRendered_iff {d : Disposition} : d.isRendered = true ↔ d ≠ .omit := by
  simp [isRendered]

theorem Decision.isRendered_iff {d : Decision} : d.isRendered = true ↔ d.disposition ≠ .omit :=
  Disposition.isRendered_iff

namespace Thresholds

theorem classify_anonymous (thresholds : Thresholds) (score : Int64) :
    thresholds.classify .anonymous score = if score < 0 then .suppressed else .visible := rfl

theorem classify_eq_suppressed_iff
    {thresholds : Thresholds} {viewer : Viewer} {score : Int64} :
    thresholds.classify viewer score = .suppressed ↔
      (viewer = .anonymous ∧ score < 0) ∨
        (viewer.isSignedIn = true ∧ viewer.isModerator = false ∧
          score < thresholds.suppression) := by
  cases viewer with
  | anonymous => simp [classify, Viewer.isSignedIn]
  | signedIn user roles =>
      by_cases hlow : score < thresholds.suppression
      · cases hmod : Viewer.isModerator (.signedIn user roles) <;>
          simp [classify, Viewer.isSignedIn, hlow, hmod]
        split <;> simp
      · simp [classify, Viewer.isSignedIn, hlow]
        split <;> simp

theorem classify_ne_suppressed_iff
    {thresholds : Thresholds} {viewer : Viewer} (hsignedIn : viewer.isSignedIn = true)
    (hmoderator : viewer.isModerator = false) {score : Int64} :
    thresholds.classify viewer score ≠ .suppressed ↔ thresholds.suppression ≤ score := by
  have hviewer : viewer ≠ .anonymous := by
    rintro rfl
    cases hsignedIn
  rw [ne_eq, classify_eq_suppressed_iff]
  simp [hviewer, hsignedIn, hmoderator, Int64.not_lt]

/-- The low quality threshold alone divides what is not suppressed. -/
theorem classify_eq_ite_of_ne_suppressed
    {thresholds : Thresholds} {viewer : Viewer} {score : Int64}
    (hviewer : viewer.isSignedIn = true) (h : thresholds.classify viewer score ≠ .suppressed) :
    thresholds.classify viewer score =
      if score < thresholds.lowQuality then .lowQuality else .visible := by
  simp only [classify, hviewer, Bool.not_true, Bool.false_eq_true, if_false] at h ⊢
  split at h
  · exact absurd rfl h
  next hkept => rw [if_neg hkept]

end Thresholds

namespace Request

theorem denies_iff {request : Request} {c : Comment} :
    request.denies c = true ↔ request.viewer = .anonymous ∧ c.isBarred = true := by
  constructor
  · intro h
    simp only [denies, Bool.and_eq_true, Bool.not_eq_true', beq_iff_eq] at h
    obtain ⟨⟨hdeleted, hclass⟩, hviewer⟩ := h
    have hanonymous := Viewer.isSignedIn_eq_false_iff.mp hviewer
    rw [classify, hanonymous, Thresholds.classify_anonymous] at hclass
    refine ⟨hanonymous, ?_⟩
    by_cases hneg : c.score < 0
    · simp [Comment.isBarred, Comment.isNegative, hdeleted, hneg]
    · simp [hneg] at hclass
  · rintro ⟨hanonymous, hbarred⟩
    simp only [Comment.isBarred, Comment.isNegative, Bool.and_eq_true, Bool.not_eq_true',
      decide_eq_true_eq] at hbarred
    simp [denies, classify, hanonymous, Thresholds.classify_anonymous, hbarred,
      Viewer.isSignedIn]

/-! ## The position of a comment -/

/-- The position of a comment below the comments of a path. -/
def positionBelow (request : Request) (above : List Comment) (c : Comment) : Position where
  depth := above.length
  revealed := (above ++ [c]).any request.reveals
  denied := (above ++ [c]).any request.denies

theorem foldl_descend (request : Request) (place : Position) (path : List Comment) :
    path.foldl request.descend place =
      { depth := place.depth + path.length
        revealed := place.revealed || path.any request.reveals
        denied := place.denied || path.any request.denies } := by
  induction path generalizing place with
  | nil => simp
  | cons c path ih =>
      rw [List.foldl_cons, ih]
      simp only [descend, enter, List.length_cons, List.any_cons, Position.mk.injEq]
      refine ⟨by omega, ?_, ?_⟩
      · rw [Bool.or_assoc]
      · rw [Bool.or_assoc]

theorem enter_foldl_descend (request : Request) (above : List Comment) (c : Comment) :
    request.enter (above.foldl request.descend {}) c = request.positionBelow above c := by
  simp [foldl_descend, enter, positionBelow]

/-! ## The plan at an address -/

/-- The plan for the comments of a forest at a position. -/
def planFrom (request : Request) (place : Position) (thread : Thread) : Plan :=
  thread.decorate request.descend
    (fun place c replies => request.decide (request.enter place c) c replies) place

@[simp]
theorem planFrom_nil (request : Request) (place : Position) :
    request.planFrom place .nil = .nil := rfl

theorem planFrom_node
    (request : Request) (place : Position) (c : Comment) (replies siblings : Thread) :
    request.planFrom place (.node c replies siblings) =
      .node
        (request.decide (request.enter place c) c (request.planFrom (request.descend place c) replies))
        (request.planFrom (request.descend place c) replies)
        (request.planFrom place siblings) := rfl

theorem plan_eq (request : Request) (thread : Thread) :
    request.plan thread = request.planFrom {} thread :=
  Forest.fold_eq ..

@[simp]
theorem value_walk (request : Request) (thread : Thread) :
    (request.walk thread).value = request.plan thread := rfl

@[simp]
theorem comment_decide (request : Request) (here : Position) (c : Comment) (replies : Plan) :
    (request.decide here c replies).comment = c.id := by
  unfold decide
  split <;> rfl

theorem map_comment_plan (request : Request) (thread : Thread) :
    (request.plan thread).map Decision.comment = thread.map Comment.id := by
  rw [plan_eq]
  apply Forest.map_decorate
  intro place c replies
  exact comment_decide request (request.enter place c) c replies

/-- The plan for the tree of a comment below the comments of a path. -/
def planned (request : Request) (above : List Comment) (tree : Tree Comment) : Tree Decision :=
  let replies := request.planFrom ((above ++ [tree.label]).foldl request.descend {}) tree.children
  { label := request.decide (request.positionBelow above tree.label) tree.label replies
    children := replies }

theorem label_planned (request : Request) (above : List Comment) (tree : Tree Comment) :
    (request.planned above tree).label =
      request.decide (request.positionBelow above tree.label) tree.label
        (request.planned above tree).children := rfl

theorem treeAt?_plan (request : Request) (thread : Thread) (address : List Nat) :
    (request.plan thread).treeAt? address =
      (thread.treeAt? address).map (request.planned (thread.above address)) := by
  rw [plan_eq, planFrom, Forest.treeAt?_decorate]
  congr 1
  funext tree
  simp only [planned, ← enter_foldl_descend, List.foldl_append, List.foldl_cons, List.foldl_nil]
  rfl

theorem exists_planned_of_mem_subtrees
    {request : Request} {thread : Thread} {node : Tree Decision}
    (hnode : node ∈ (request.plan thread).subtrees) :
    ∃ above, ∃ tree ∈ thread.subtrees, request.planned above tree = node := by
  obtain ⟨address, haddress⟩ := Forest.mem_subtrees_iff.mp hnode
  rw [treeAt?_plan, Option.map_eq_some_iff] at haddress
  obtain ⟨tree, htree, hplanned⟩ := haddress
  exact ⟨thread.above address, tree, Forest.mem_subtrees_iff.mpr ⟨address, htree⟩, hplanned⟩

/-! ## How a comment is shown -/

/-- A decision depends on the plan for the replies through whether any reply is shown. -/
theorem decide_congr
    {request : Request} {here : Position} {c : Comment} {replies replies' : Plan}
    (h : replies.anyRoot Decision.isRendered = replies'.anyRoot Decision.isRendered) :
    request.decide here c replies = request.decide here c replies' := by
  rw [decide, decide, h]

theorem decide_of_denied
    {request : Request} {here : Position} (h : here.denied = true)
    (c : Comment) (replies : Plan) :
    request.decide here c replies =
      { comment := c.id, disposition := .omit, childless := true } := by
  simp [decide, h]

theorem decide_of_not_denied
    {request : Request} {here : Position} (h : here.denied = false)
    (c : Comment) (replies : Plan) :
    request.decide here c replies =
      let childless := !replies.anyRoot Decision.isRendered
      let disposition := request.disposition here childless c
      { comment := c.id
        disposition := disposition
        lowQuality := disposition == .full && request.classify c == .lowQuality
        childless := childless } := by
  simp [decide, h]

/-- Why a comment is shown as it is, to a viewer who was not denied it. -/
inductive Shows (request : Request) (here : Position) (childless : Bool) (c : Comment) :
    Disposition → Prop
  | deleted (hdeleted : c.deleted = true) :
      Shows request here childless c .deletedPlaceholder
  | dropped (hdeleted : c.deleted = false) (hchildless : childless = true)
      (hdrops : request.dropsWhenChildless here.depth c = true) :
      Shows request here childless c .omit
  | suppressed (hdeleted : c.deleted = false) (hchildless : childless = false)
      (hclass : request.classify c = .suppressed) :
      Shows request here childless c .deletedPlaceholder
  | hidden (hdeleted : c.deleted = false)
      (hkept : childless = true → request.dropsWhenChildless here.depth c = false)
      (hclass : request.classify c ≠ .suppressed)
      (hhidden : c.hidden = true) (hrevealed : here.revealed = false) :
      Shows request here childless c .hiddenPlaceholder
  | full (hdeleted : c.deleted = false)
      (hkept : childless = true → request.dropsWhenChildless here.depth c = false)
      (hclass : request.classify c ≠ .suppressed)
      (hhidden : c.hidden = true → here.revealed = true) :
      Shows request here childless c .full

theorem dropsWhenChildless_of_suppressed
    {request : Request} {c : Comment} (hclass : request.classify c = .suppressed) (depth : Nat) :
    request.dropsWhenChildless depth c = true := by
  simp [dropsWhenChildless, hclass]

theorem shows_disposition (request : Request) (here : Position) (childless : Bool) (c : Comment) :
    request.Shows here childless c (request.disposition here childless c) := by
  unfold disposition
  split
  next hdeleted => exact .deleted hdeleted
  next hdeleted =>
    have hdeleted : c.deleted = false := by simpa using hdeleted
    split
    next hdrops =>
      obtain ⟨hchildless, hdrops⟩ := Bool.and_eq_true_iff.mp hdrops
      exact .dropped hdeleted hchildless hdrops
    next hkept =>
      have hkept : childless = true → request.dropsWhenChildless here.depth c = false := by
        simpa using hkept
      split
      next hclass =>
        have hclass : request.classify c = .suppressed := by simpa using hclass
        refine .suppressed hdeleted ?_ hclass
        by_contra hchildless
        have hdrops := hkept (by simpa using hchildless)
        simp [dropsWhenChildless_of_suppressed hclass] at hdrops
      next hclass =>
        have hclass : request.classify c ≠ .suppressed := by simpa using hclass
        split
        next hhidden =>
          simp only [Bool.and_eq_true, Bool.not_eq_true'] at hhidden
          exact .hidden hdeleted hkept hclass hhidden.1 hhidden.2
        next hhidden =>
          exact .full hdeleted hkept hclass (by simpa using hhidden)

/-- Only a comment without shown replies is ever left out. -/
theorem disposition_eq_omit_iff
    {request : Request} {here : Position} {childless : Bool} {c : Comment} :
    request.disposition here childless c = .omit ↔
      c.deleted = false ∧ childless = true ∧
        request.dropsWhenChildless here.depth c = true := by
  have hshows := request.shows_disposition here childless c
  constructor
  · intro h
    rw [h] at hshows
    cases hshows with
    | dropped hdeleted hchildless hdrops => exact ⟨hdeleted, hchildless, hdrops⟩
  · rintro ⟨hdeleted, hchildless, hdrops⟩
    simp [disposition, hdeleted, hchildless, hdrops]

end Request

end Discussion
