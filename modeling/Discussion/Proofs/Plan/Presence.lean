import Discussion.Proofs.Plan.Decision

/-!
# Which comments are shown

The walk decides from a comment's direct replies whether the comment is left out.
What it decides has a description without recursion.  An anonymous viewer is shown
a comment if and only if no barred comment lies on the way to it.  Any other viewer
is shown a comment if and only if it, or some comment below it at any distance,
stands on its own.
-/

namespace Discussion

/-- Whether anything is shown at an address of a plan. -/
def Plan.IsShownAt (plan : Plan) (address : List Nat) : Prop :=
  ∃ planned, plan.treeAt? address = some planned ∧ planned.label.disposition ≠ .omit

namespace Request

/-- Whether a comment at a depth is shown even when none of its replies is. -/
def StandsAlone (request : Request) (depth : Nat) (c : Comment) : Prop :=
  c.deleted = true ∨ request.classify c = .visible ∨
    (request.classify c = .lowQuality ∧
      ¬(depth = 0 ∧ request.permalink = none ∧ request.viewer.isModerator = false))

theorem standsAlone_iff {request : Request} {depth : Nat} {c : Comment} :
    request.StandsAlone depth c ↔
      ¬(c.deleted = false ∧ request.dropsWhenChildless depth c = true) := by
  unfold StandsAlone dropsWhenChildless
  cases hdeleted : c.deleted with
  | true => simp
  | false =>
      cases hclass : request.classify c with
      | visible => simp
      | suppressed => simp
      | lowQuality => simp [and_assoc]

/-- A viewer who is not denied a comment is shown it exactly if it stands alone or
some reply to it is shown. -/
theorem decide_ne_omit_iff
    {request : Request} {here : Position} (h : here.denied = false)
    {c : Comment} {replies : Plan} :
    (request.decide here c replies).disposition ≠ .omit ↔
      request.StandsAlone here.depth c ∨ replies.anyRoot Decision.isRendered = true := by
  rw [decide_of_not_denied h, standsAlone_iff, ne_eq, disposition_eq_omit_iff]
  cases replies.anyRoot Decision.isRendered <;> simp

/-! ## Viewers who are signed in -/

theorem denies_eq_false
    {request : Request} (hviewer : request.viewer ≠ .anonymous) (c : Comment) :
    request.denies c = false := by
  by_contra h
  have hdenies : request.denies c = true := by simpa using h
  exact hviewer (denies_iff.mp hdenies).1

theorem anyRoot_planFrom_iff
    {request : Request} (hviewer : request.viewer ≠ .anonymous)
    {place : Position} (hplace : place.denied = false) (thread : Thread) :
    (request.planFrom place thread).anyRoot Decision.isRendered = true ↔
      ∃ address below, thread.treeAt? address = some below ∧
        request.StandsAlone (place.depth + (address.length - 1)) below.label := by
  induction thread generalizing place with
  | nil => simp [Forest.anyRoot]
  | node c replies siblings ihc ihs =>
      have henter : (request.enter place c).denied = false := by
        simp [enter, hplace, denies_eq_false hviewer]
      have hdescend : (request.descend place c).denied = false := henter
      -- The address of a reply is one longer below the comment than below its replies.
      have hreplies : (request.planFrom (request.descend place c) replies).anyRoot
            Decision.isRendered = true ↔
          ∃ address below, replies.treeAt? address = some below ∧
            request.StandsAlone (place.depth + ((0 :: address).length - 1)) below.label := by
        rw [ihc hdescend]
        apply exists_congr
        intro address
        apply exists_congr
        intro below
        apply and_congr_right
        intro hbelow
        have hlength := Forest.length_above hbelow
        have hdepth : (request.descend place c).depth + (address.length - 1) =
            place.depth + ((0 :: address).length - 1) := by
          change place.depth + 1 + (address.length - 1) = _
          simp only [List.length_cons]
          omega
        rw [hdepth]
      rw [Forest.exists_treeAt?_node, ← hreplies, planFrom_node, Forest.anyRoot, Bool.or_eq_true,
        ihs hplace, Decision.isRendered, Disposition.isRendered_iff, decide_ne_omit_iff henter]
      simp [enter, or_assoc]

theorem isShownAt_iff
    {request : Request} {thread : Thread} {address : List Nat} {tree : Tree Comment}
    (h : thread.treeAt? address = some tree) :
    (request.plan thread).IsShownAt address ↔
      (request.planned (thread.above address) tree).label.disposition ≠ .omit := by
  simp [Plan.IsShownAt, treeAt?_plan, h]

theorem any_denies_eq_false
    {request : Request} (hviewer : request.viewer ≠ .anonymous) (path : List Comment) :
    path.any request.denies = false := by
  rw [List.any_eq_false]
  intro c _
  simp [denies_eq_false hviewer c]

theorem depth_below
    (request : Request) {thread : Thread} {address : List Nat} {tree : Tree Comment}
    (h : thread.treeAt? address = some tree) :
    ((thread.above address ++ [tree.label]).foldl request.descend {}).depth = address.length := by
  rw [foldl_descend]
  simpa using Forest.length_above h

theorem isShownAt_iff_of_signedIn
    {request : Request} (hviewer : request.viewer ≠ .anonymous)
    {thread : Thread} {address : List Nat} {tree : Tree Comment}
    (h : thread.treeAt? address = some tree) :
    (request.plan thread).IsShownAt address ↔
      ∃ further below, thread.treeAt? (address ++ further) = some below ∧
        request.StandsAlone ((address ++ further).length - 1) below.label := by
  have hlength := Forest.length_above h
  have hhere : (request.positionBelow (thread.above address) tree.label).denied = false :=
    any_denies_eq_false hviewer _
  have hbelow : ((thread.above address ++ [tree.label]).foldl request.descend {}).denied =
      false := by
    rw [foldl_descend]
    exact any_denies_eq_false hviewer _
  have hself : request.StandsAlone (request.positionBelow (thread.above address) tree.label).depth
        tree.label ↔ request.StandsAlone ((address ++ []).length - 1) tree.label := by
    simp [positionBelow, ← hlength]
  have hreplies : (request.planned (thread.above address) tree).children.anyRoot
        Decision.isRendered = true ↔
      ∃ further below, tree.children.treeAt? further = some below ∧
        request.StandsAlone ((address ++ further).length - 1) below.label := by
    change (request.planFrom _ tree.children).anyRoot _ = true ↔ _
    rw [anyRoot_planFrom_iff hviewer hbelow, request.depth_below h]
    apply exists_congr
    intro further
    apply exists_congr
    intro below
    apply and_congr_right
    intro hfurther
    have hpos := List.length_pos_iff.mpr (Forest.ne_nil_of_treeAt? hfurther)
    rw [List.length_append, Nat.add_sub_assoc hpos]
  rw [isShownAt_iff h, label_planned, decide_ne_omit_iff hhere, hself, hreplies]
  simp only [Forest.treeAt?_append_of_eq_some h]
  exact (Forest.exists_at?_iff (P := fun further below =>
    request.StandsAlone ((address ++ further).length - 1) below.label)).symm

/-! ## Anonymous viewers -/

theorem classify_of_not_barred
    {request : Request} (hviewer : request.viewer = .anonymous) {c : Comment}
    (hdeleted : c.deleted = false) (hbarred : c.isBarred = false) :
    request.classify c = .visible := by
  have hscore : ¬c.score < 0 := by
    simpa [Comment.isBarred, Comment.isNegative, hdeleted] using hbarred
  rw [classify, hviewer, Thresholds.classify_anonymous, if_neg hscore]

theorem isShownAt_iff_of_anonymous
    {request : Request} (hviewer : request.viewer = .anonymous)
    {thread : Thread} {address : List Nat} {tree : Tree Comment}
    (h : thread.treeAt? address = some tree) :
    (request.plan thread).IsShownAt address ↔
      ∀ c ∈ thread.above address ++ [tree.label], c.isBarred = false := by
  have hdenied : (request.positionBelow (thread.above address) tree.label).denied = true ↔
      ∃ c ∈ thread.above address ++ [tree.label], c.isBarred = true := by
    simp only [positionBelow, List.any_eq_true, denies_iff, hviewer, true_and]
  rw [isShownAt_iff h, label_planned]
  cases hhere : (request.positionBelow (thread.above address) tree.label).denied with
  | true =>
      obtain ⟨c, hmem, hbarred⟩ := hdenied.mp hhere
      rw [decide_of_denied hhere]
      constructor
      · intro hshown
        exact absurd rfl hshown
      · intro hnone
        rw [hnone c hmem] at hbarred
        cases hbarred
  | false =>
      have hnone : ∀ c ∈ thread.above address ++ [tree.label], c.isBarred = false := by
        intro c hmem
        by_contra hbarred
        have htrue := hdenied.mpr ⟨c, hmem, by simpa using hbarred⟩
        rw [hhere] at htrue
        cases htrue
      refine ⟨fun _ => hnone, fun _ => ?_⟩
      rw [decide_ne_omit_iff hhere]
      left
      cases hdeleted : tree.label.deleted with
      | true => exact Or.inl hdeleted
      | false =>
          have hlabel := hnone tree.label (by simp)
          exact Or.inr (Or.inl (classify_of_not_barred hviewer hdeleted hlabel))

/-! ## What follows for parents and replies -/

/-- Every comment on the way to a comment that is shown is shown. -/
theorem isShownAt_of_append
    {request : Request} {thread : Thread} {address further : List Nat} (hne : address ≠ [])
    (hshown : (request.plan thread).IsShownAt (address ++ further)) :
    (request.plan thread).IsShownAt address := by
  have hshown' := hshown
  obtain ⟨planned, hplanned, _⟩ := hshown'
  rw [treeAt?_plan] at hplanned
  obtain ⟨below, hbelow, _⟩ := Option.map_eq_some_iff.mp hplanned
  obtain ⟨tree, htree⟩ := Forest.exists_treeAt?_of_append hne hbelow
  by_cases hviewer : request.viewer = .anonymous
  · rw [isShownAt_iff_of_anonymous hviewer hbelow] at hshown
    rw [isShownAt_iff_of_anonymous hviewer htree]
    by_cases hfurther : further = []
    · subst hfurther
      rw [List.append_nil] at hbelow hshown
      obtain rfl : tree = below := Option.some.inj (htree.symm.trans hbelow)
      exact hshown
    · rw [Forest.above_append htree hfurther] at hshown
      intro c hmem
      rcases List.mem_append.mp hmem with habove | hself
      · exact hshown c (by simp [habove])
      · obtain rfl := List.mem_singleton.mp hself
        exact hshown tree.label (by simp)
  · rw [isShownAt_iff_of_signedIn hviewer hbelow] at hshown
    rw [isShownAt_iff_of_signedIn hviewer htree]
    obtain ⟨more, lowest, hlowest, halone⟩ := hshown
    rw [List.append_assoc] at hlowest halone
    exact ⟨further ++ more, lowest, hlowest, halone⟩

theorem anyRoot_iff_exists_isShownAt
    {plan : Plan} {address : List Nat} {planned : Tree Decision}
    (h : plan.treeAt? address = some planned) :
    planned.children.anyRoot Decision.isRendered = true ↔
      ∃ i, plan.IsShownAt (address ++ [i]) := by
  simp only [Plan.IsShownAt, Forest.treeAt?_concat h, Forest.anyRoot_iff,
    List.mem_iff_getElem?, Decision.isRendered_iff]
  constructor
  · rintro ⟨reply, ⟨i, hi⟩, hshown⟩
    exact ⟨i, reply, hi, hshown⟩
  · rintro ⟨i, reply, hi, hshown⟩
    exact ⟨reply, ⟨i, hi⟩, hshown⟩

theorem childless_iff
    {request : Request} {thread : Thread} {address : List Nat} {planned : Tree Decision}
    (h : (request.plan thread).treeAt? address = some planned) :
    planned.label.childless = true ↔
      ∀ further, further ≠ [] → ¬(request.plan thread).IsShownAt (address ++ further) := by
  have hne := Forest.ne_nil_of_treeAt? h
  have hplanned := h
  rw [treeAt?_plan] at hplanned
  obtain ⟨tree, htree, rfl⟩ := Option.map_eq_some_iff.mp hplanned
  have hlabel := request.label_planned (thread.above address) tree
  cases hhere : (request.positionBelow (thread.above address) tree.label).denied with
  | true =>
      rw [decide_of_denied hhere] at hlabel
      have hchildless : (request.planned (thread.above address) tree).label.childless = true := by
        rw [hlabel]
      refine ⟨fun _ further _ hshown => ?_, fun _ => hchildless⟩
      have hself := isShownAt_of_append hne hshown
      rw [isShownAt_iff htree, hlabel] at hself
      exact hself rfl
  | false =>
      rw [decide_of_not_denied hhere] at hlabel
      have hchildless : (request.planned (thread.above address) tree).label.childless =
          !(request.planned (thread.above address) tree).children.anyRoot
            Decision.isRendered := by rw [hlabel]
      rw [hchildless, Bool.not_eq_true', Bool.eq_false_iff, ne_eq,
        anyRoot_iff_exists_isShownAt h]
      constructor
      · rintro hnone further hfurther hshown
        obtain ⟨i, rest, rfl⟩ := List.exists_cons_of_ne_nil hfurther
        rw [List.append_cons] at hshown
        exact hnone ⟨i, isShownAt_of_append (by simp) hshown⟩
      · rintro hall ⟨i, hshown⟩
        exact hall [i] (by simp) hshown

theorem standsAlone_of_isModerator
    {request : Request} (hmoderator : request.viewer.isModerator = true)
    (depth : Nat) (c : Comment) :
    request.StandsAlone depth c := by
  have hviewer := Viewer.ne_anonymous_of_isModerator hmoderator
  cases hclass : request.classify c with
  | visible => exact Or.inr (Or.inl hclass)
  | lowQuality => exact Or.inr (Or.inr ⟨hclass, by simp [hmoderator]⟩)
  | suppressed =>
      rw [classify, Thresholds.classify_eq_suppressed_iff] at hclass
      simp [hviewer, hmoderator] at hclass

/-! ## The description of what is shown -/

/-- What a plan shows, said of the comments of the thread and not of the walk. -/
structure ShowsExactly (request : Request) (thread : Thread) (plan : Plan) : Prop where
  anonymous : request.viewer = .anonymous →
    ∀ address tree, thread.treeAt? address = some tree →
      (plan.IsShownAt address ↔
        ∀ c ∈ thread.above address ++ [tree.label], ¬(c.deleted = false ∧ c.score < 0))
  signedIn : request.viewer ≠ .anonymous →
    ∀ address tree, thread.treeAt? address = some tree →
      (plan.IsShownAt address ↔
        ∃ further below, thread.treeAt? (address ++ further) = some below ∧
          request.StandsAlone ((address ++ further).length - 1) below.label)
  parent : ∀ address i, address ≠ [] → plan.IsShownAt (address ++ [i]) → plan.IsShownAt address
  childless : ∀ address planned, plan.treeAt? address = some planned →
    (planned.label.childless = true ↔
      ∀ further, further ≠ [] → ¬plan.IsShownAt (address ++ further))
  moderator : request.viewer.isModerator = true →
    ∀ address tree, thread.treeAt? address = some tree → plan.IsShownAt address

/-- Which comments a walk shows, for every forest and every request. -/
theorem walk_showsExactly (request : Request) (thread : Thread) :
    request.ShowsExactly thread (request.walk thread).value := by
  rw [value_walk]
  refine {
    anonymous := ?_
    signedIn := fun hviewer address tree => isShownAt_iff_of_signedIn hviewer
    parent := fun address i hne => isShownAt_of_append hne
    childless := fun address planned => childless_iff
    moderator := ?_ }
  · intro hviewer address tree htree
    rw [isShownAt_iff_of_anonymous hviewer htree]
    simp [Comment.isBarred, Comment.isNegative]
  · intro hmoderator address tree htree
    have hviewer := Viewer.ne_anonymous_of_isModerator hmoderator
    rw [isShownAt_iff_of_signedIn hviewer htree]
    exact ⟨[], tree, by simpa using htree, standsAlone_of_isModerator hmoderator _ _⟩

end Request

end Discussion
