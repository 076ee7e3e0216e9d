import Discussion.Proofs.Plan.Appearance

/-!
# Plans for an opened comment

The permalink of a comment is served by a plan of its own, with the comment at the root.
No comment is left out of that plan for its low quality, so a root that is suppressed is
shown if and only if some comment below it, at any distance, is not.

A comment that is shown in the plan for its thread is planned alike when it is opened:
the depth decides nothing but whether a childless root of low quality is left out.  If
the opened comment is hidden, every note in its plan that a comment is hidden gives way
to the text, and that is the only difference.
-/

namespace Discussion

attribute [ext] Decision

/-- A decision with its text in place of the note that the comment is hidden.  The marks of
low quality are given by number. -/
def Decision.unveiled (marked : CommentId → Bool) (d : Decision) : Decision :=
  if d.disposition = .hiddenPlaceholder then
    { d with disposition := .full, lowQuality := marked d.comment }
  else d

/-- A decision as it reads where hidden comments are revealed or not. -/
def Decision.seen (revealed : Bool) (marked : CommentId → Bool) (d : Decision) : Decision :=
  if revealed then d.unveiled marked else d

namespace Decision

variable {revealed : Bool} {marked : CommentId → Bool} {d : Decision}

theorem seen_of_ne (h : d.disposition ≠ .hiddenPlaceholder) : d.seen revealed marked = d := by
  simp [seen, unveiled, h]

@[simp]
theorem comment_seen : (d.seen revealed marked).comment = d.comment := by
  unfold seen unveiled
  split <;> [split <;> rfl; rfl]

@[simp]
theorem childless_seen : (d.seen revealed marked).childless = d.childless := by
  unfold seen unveiled
  split <;> [split <;> rfl; rfl]

theorem disposition_seen :
    (d.seen revealed marked).disposition =
      if revealed = true ∧ d.disposition = .hiddenPlaceholder then .full else d.disposition := by
  by_cases h : d.disposition = .hiddenPlaceholder
  · cases revealed <;> simp [seen, unveiled, h]
  · rw [seen_of_ne h, if_neg (fun hboth => h hboth.2)]

theorem lowQuality_seen :
    (d.seen revealed marked).lowQuality =
      if revealed = true ∧ d.disposition = .hiddenPlaceholder then marked d.comment
      else d.lowQuality := by
  by_cases h : d.disposition = .hiddenPlaceholder
  · cases revealed <;> simp [seen, unveiled, h]
  · rw [seen_of_ne h, if_neg (fun hboth => h hboth.2)]

@[simp]
theorem isRendered_seen : (d.seen revealed marked).isRendered = d.isRendered := by
  rw [isRendered, isRendered, disposition_seen]
  split
  next h => rw [h.2]; rfl
  next => rfl

end Decision

namespace Request

variable {request : Request}

/-! ## Whether an opened comment is shown -/

theorem standsAlone_iff_of_permalink
    {id : CommentId} (hpermalink : request.permalink = some id) {depth : Nat} {c : Comment} :
    request.StandsAlone depth c ↔ c.deleted = true ∨ request.classify c ≠ .suppressed := by
  unfold StandsAlone
  cases request.classify c <;> simp [hpermalink]

theorem planned_ne_omit_iff_of_permalink
    (hviewer : request.viewer ≠ .anonymous) {id : CommentId}
    (hpermalink : request.permalink = some id) (above : List Comment) (tree : Tree Comment) :
    (request.planned above tree).label.disposition ≠ .omit ↔
      ∃ c ∈ tree.label :: tree.children.labels,
        c.deleted = true ∨ request.classify c ≠ .suppressed := by
  have hhere : (request.positionBelow above tree.label).denied = false :=
    any_denies_eq_false hviewer _
  have hbelow : ((above ++ [tree.label]).foldl request.descend {}).denied = false := by
    rw [foldl_descend]
    exact any_denies_eq_false hviewer _
  have hreplies : (request.planned above tree).children.anyRoot Decision.isRendered = true ↔
      ∃ c ∈ tree.children.labels, c.deleted = true ∨ request.classify c ≠ .suppressed := by
    change (request.planFrom _ tree.children).anyRoot _ = true ↔ _
    rw [anyRoot_planFrom_iff hviewer hbelow]
    simp only [standsAlone_iff_of_permalink hpermalink, Forest.mem_labels_iff]
    constructor
    · rintro ⟨address, below, hfound, hstands⟩
      exact ⟨below.label, ⟨address, below, hfound, rfl⟩, hstands⟩
    · rintro ⟨c, ⟨address, below, hfound, rfl⟩, hstands⟩
      exact ⟨address, below, hfound, hstands⟩
  rw [label_planned, decide_ne_omit_iff hhere, standsAlone_iff_of_permalink hpermalink, hreplies,
    List.exists_mem_cons_iff]

theorem planned_ne_omit_iff_of_anonymous
    (hviewer : request.viewer = .anonymous) (tree : Tree Comment) :
    (request.planned [] tree).label.disposition ≠ .omit ↔ tree.label.isBarred = false := by
  have htree : (Forest.node tree.label tree.children .nil).treeAt? [0] = some tree := rfl
  have hshown := isShownAt_iff_of_anonymous hviewer htree
  rw [isShownAt_iff htree] at hshown
  simpa using hshown

/-! ## The same comment within its thread -/

/-- The same request for a comment that is opened by its permalink. -/
def opening (request : Request) (id : CommentId) : Request :=
  { request with permalink := some id }

@[simp]
theorem classify_opening (request : Request) (id : CommentId) :
    (request.opening id).classify = request.classify := rfl

@[simp]
theorem permalink_opening (request : Request) (id : CommentId) :
    (request.opening id).permalink = some id := rfl

@[simp]
theorem denies_opening (request : Request) (id : CommentId) :
    (request.opening id).denies = request.denies := rfl

theorem reveals_opening_iff {id : CommentId} {c : Comment} :
    (request.opening id).reveals c = true ↔ id = c.id ∧ c.hidden = true := by
  simp [reveals, opening]

theorem reveals_eq_false (hpermalink : request.permalink = none) (c : Comment) :
    request.reveals c = false := by
  simp [reveals, hpermalink]

theorem appearance_true (request : Request) (c : Comment) :
    request.appearance true c =
      if request.appearance false c = .hiddenPlaceholder then .full
      else request.appearance false c := by
  unfold appearance
  cases c.deleted <;> cases request.classify c <;> cases c.hidden <;> simp

/-- Whether a place in a thread and the same place below an opened comment differ in
nothing but their depths and whether hidden comments are revealed there. -/
structure PlacesOpened (place place' : Position) (revealed : Bool) : Prop where
  hidden : place.revealed = false
  revealed_eq : place'.revealed = revealed
  denied_eq : place'.denied = place.denied

theorem enter_placesOpened
    (hpermalink : request.permalink = none) {place place' : Position} {revealed : Bool}
    (h : PlacesOpened place place' revealed) {id : CommentId} {c : Comment} (hid : c.id ≠ id) :
    PlacesOpened (request.enter place c) ((request.opening id).enter place' c) revealed := by
  -- The opened comment is not met again, so what it revealed stays as it is.
  have hself : (request.opening id).reveals c = false := by
    rw [Bool.eq_false_iff, ne_eq, reveals_opening_iff]
    rintro ⟨hsame, -⟩
    exact hid hsame.symm
  constructor
  · simp [enter, h.hidden, reveals_eq_false hpermalink]
  · simp [enter, h.revealed_eq, hself]
  · simp [enter, h.denied_eq]

theorem descend_placesOpened
    (hpermalink : request.permalink = none) {place place' : Position} {revealed : Bool}
    (h : PlacesOpened place place' revealed) {id : CommentId} {c : Comment} (hid : c.id ≠ id) :
    PlacesOpened (request.descend place c) ((request.opening id).descend place' c) revealed := by
  obtain ⟨hhidden, hrevealed, hdenied⟩ := enter_placesOpened hpermalink h hid
  exact ⟨hhidden, hrevealed, hdenied⟩

section Deciding

variable {id : CommentId} {here here' : Position} {c : Comment} {replies replies' : Plan}

theorem childless_decide_eq
    {other : Request} (hdenied : here'.denied = here.denied)
    (hreplies : replies'.anyRoot Decision.isRendered = replies.anyRoot Decision.isRendered) :
    (other.decide here' c replies').childless = (request.decide here c replies).childless := by
  by_cases hhere : here.denied = true
  · rw [decide_of_denied hhere, decide_of_denied (hdenied.trans hhere)]
  · rw [Bool.not_eq_true] at hhere
    rw [childless_decide hhere, childless_decide (hdenied.trans hhere), hreplies]

/-- Where a comment is not left out for standing at the top, it is left out of both plans
or of none. -/
theorem decide_opening_eq_omit_iff
    (hdenied : here'.denied = here.denied)
    (hreplies : replies'.anyRoot Decision.isRendered = replies.anyRoot Decision.isRendered)
    (htop : here.depth = 0 → (request.decide here c replies).disposition ≠ .omit) :
    ((request.opening id).decide here' c replies').disposition = .omit ↔
      (request.decide here c replies).disposition = .omit := by
  by_cases hhere : here.denied = true
  · rw [decide_of_denied hhere, decide_of_denied (hdenied.trans hhere)]
  · rw [Bool.not_eq_true] at hhere
    have hchildless : ((request.opening id).decide here' c replies').childless =
        (request.decide here c replies).childless := childless_decide_eq hdenied hreplies
    have hopened : ((request.opening id).decide here' c replies').disposition = .omit ↔
        c.deleted = false ∧ (request.decide here c replies).childless = true ∧
          request.classify c = .suppressed := by
      rw [decide_eq_omit_iff (hdenied.trans hhere), hchildless]
      simp
    rw [hopened]
    constructor
    · rintro ⟨hdeleted, hnone, hclass⟩
      exact (decide_eq_omit_iff hhere).mpr ⟨hdeleted, hnone, Or.inl hclass⟩
    · intro homit
      obtain ⟨hdeleted, hnone, hclass⟩ := (decide_eq_omit_iff hhere).mp homit
      refine ⟨hdeleted, hnone, ?_⟩
      rcases hclass with hsuppressed | ⟨-, hdepth, -, -⟩
      · exact hsuppressed
      · exact absurd homit (htop hdepth)

/-- One decision when a comment is opened. -/
theorem decide_opening
    {revealed : Bool} (hplaces : PlacesOpened here here' revealed)
    (hreplies : replies'.anyRoot Decision.isRendered = replies.anyRoot Decision.isRendered)
    (htop : here.depth = 0 → (request.decide here c replies).disposition ≠ .omit)
    {marked : CommentId → Bool} (hmarked : marked c.id = (request.classify c == .lowQuality)) :
    (request.opening id).decide here' c replies' =
      (request.decide here c replies).seen revealed marked := by
  have homit : ((request.opening id).decide here' c replies').disposition = .omit ↔
      (request.decide here c replies).disposition = .omit :=
    decide_opening_eq_omit_iff hplaces.denied_eq hreplies htop
  have hdisposition : ((request.opening id).decide here' c replies').disposition =
      ((request.decide here c replies).seen revealed marked).disposition := by
    by_cases hnone : (request.decide here c replies).disposition = .omit
    · rw [homit.mpr hnone, Decision.seen_of_ne (by simp [hnone]), hnone]
    · have hshown := mt homit.mp hnone
      rw [Decision.disposition_seen, disposition_decide hnone, disposition_decide hshown,
        hplaces.hidden, hplaces.revealed_eq]
      change request.appearance revealed c = _
      by_cases hreveals : revealed = true
      · simp [hreveals, appearance_true]
      · simp [hreveals]
  have hlowQuality : ((request.opening id).decide here' c replies').lowQuality =
      ((request.decide here c replies).seen revealed marked).lowQuality := by
    rw [Bool.eq_iff_iff, lowQuality_decide_iff, hdisposition, Decision.disposition_seen,
      Decision.lowQuality_seen, classify_opening]
    split
    next => simp [hmarked]
    next => rw [lowQuality_decide_iff]
  have hchildless : ((request.opening id).decide here' c replies').childless =
      ((request.decide here c replies).seen revealed marked).childless := by
    rw [childless_decide_eq hplaces.denied_eq hreplies, Decision.childless_seen]
  exact Decision.ext (by simp) hdisposition hlowQuality hchildless

end Deciding

/-! ## The plan below an opened comment -/

/-- Below an opened comment the plan reads as it does within the thread, with hidden
comments revealed or not. -/
theorem planFrom_opening
    (hpermalink : request.permalink = none) {id : CommentId} {place place' : Position}
    (hdepth : place.depth ≠ 0) {revealed : Bool} (hplaces : PlacesOpened place place' revealed)
    {marked : CommentId → Bool} {thread : Thread}
    (hids : ∀ c ∈ thread.labels, c.id ≠ id)
    (hmarked : ∀ c ∈ thread.labels, marked c.id = (request.classify c == .lowQuality)) :
    (request.opening id).planFrom place' thread =
      (request.planFrom place thread).map (Decision.seen revealed marked) := by
  induction thread generalizing place place' with
  | nil => rfl
  | node c replies siblings ihc ihs =>
      have hid : c.id ≠ id := hids c (by simp)
      have hreplies :
          (request.opening id).planFrom ((request.opening id).descend place' c) replies =
            (request.planFrom (request.descend place c) replies).map
              (Decision.seen revealed marked) := by
        apply ihc
        · exact Nat.succ_ne_zero _
        · exact descend_placesOpened hpermalink hplaces hid
        · exact fun d hd => hids d (by simp [hd])
        · exact fun d hd => hmarked d (by simp [hd])
      have hsiblings : (request.opening id).planFrom place' siblings =
          (request.planFrom place siblings).map (Decision.seen revealed marked) := by
        apply ihs hdepth hplaces
        · exact fun d hd => hids d (by simp [hd])
        · exact fun d hd => hmarked d (by simp [hd])
      have hdecide : (request.opening id).decide ((request.opening id).enter place' c) c
            ((request.planFrom (request.descend place c) replies).map
              (Decision.seen revealed marked)) =
          (request.decide (request.enter place c) c
            (request.planFrom (request.descend place c) replies)).seen revealed marked := by
        apply decide_opening (enter_placesOpened hpermalink hplaces hid)
        · simp [Function.comp_def]
        · exact fun htop => absurd htop hdepth
        · exact hmarked c (by simp)
      rw [planFrom_node, planFrom_node, hreplies, hsiblings, hdecide, Forest.map]

theorem positionBelow_placesOpened
    (hpermalink : request.permalink = none) {above : List Comment} {c : Comment}
    (hdenied : (above ++ [c]).any request.denies = false) :
    PlacesOpened (request.positionBelow above c) ((request.opening c.id).positionBelow [] c)
      c.hidden := by
  have hself : request.denies c = false :=
    Bool.eq_false_iff.mpr (List.any_eq_false.mp hdenied c (by simp))
  have hrevealed : (above ++ [c]).any request.reveals = false := by
    rw [List.any_eq_false]
    intro d _
    simp [reveals_eq_false hpermalink d]
  have hhidden : (request.opening c.id).reveals c = c.hidden := by
    rw [Bool.eq_iff_iff, reveals_opening_iff]
    simp
  constructor
  · exact hrevealed
  · simp [positionBelow, hhidden]
  · simp only [positionBelow, hdenied]
    simp [hself]

theorem foldl_descend_placesOpened
    (hpermalink : request.permalink = none) {above : List Comment} {c : Comment}
    (hdenied : (above ++ [c]).any request.denies = false) :
    PlacesOpened ((above ++ [c]).foldl request.descend {})
      (([] ++ [c]).foldl (request.opening c.id).descend {}) c.hidden := by
  obtain ⟨hhidden, hrevealed, hdenied⟩ := positionBelow_placesOpened hpermalink hdenied
  rw [foldl_descend, foldl_descend]
  exact ⟨hhidden, hrevealed, hdenied⟩

/-- A comment that is shown within its thread is planned alike when it is opened, with
hidden comments revealed if it is hidden itself. -/
theorem planned_opening
    (hpermalink : request.permalink = none) {above : List Comment} {tree : Tree Comment}
    (hshown : (request.planned above tree).label.disposition ≠ .omit)
    (hids : ∀ c ∈ tree.children.labels, c.id ≠ tree.label.id) {marked : CommentId → Bool}
    (hmarked : ∀ c ∈ tree.label :: tree.children.labels,
      marked c.id = (request.classify c == .lowQuality)) :
    let seen := Decision.seen tree.label.hidden marked
    (request.opening tree.label.id).planned [] tree =
      { label := seen (request.planned above tree).label
        children := (request.planned above tree).children.map seen } := by
  intro seen
  have hdenied : (above ++ [tree.label]).any request.denies = false := by
    by_contra hdenied
    rw [Bool.not_eq_false] at hdenied
    rw [label_planned, decide_of_denied hdenied] at hshown
    exact hshown rfl
  have hchildren : ((request.opening tree.label.id).planned [] tree).children =
      (request.planned above tree).children.map seen := by
    apply planFrom_opening hpermalink
    · rw [foldl_descend]
      simp
    · exact foldl_descend_placesOpened hpermalink hdenied
    · exact hids
    · exact fun c hc => hmarked c (List.mem_cons_of_mem _ hc)
  have hlabel : ((request.opening tree.label.id).planned [] tree).label =
      seen (request.planned above tree).label := by
    rw [label_planned] at hshown
    rw [label_planned, label_planned, hchildren]
    apply decide_opening (positionBelow_placesOpened hpermalink hdenied)
    · simp [seen, Function.comp_def]
    · exact fun _ => hshown
    · exact hmarked tree.label (List.mem_cons_self ..)
  rw [← hlabel, ← hchildren]

end Request

end Discussion
