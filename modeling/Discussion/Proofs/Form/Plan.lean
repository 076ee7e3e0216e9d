import Discussion.Form.View
import Discussion.Proofs.Forest.Growth
import Discussion.Proofs.Forest.Height
import Discussion.Proofs.Form.Snapshot

/-!
# Plans and views read back

A plan is read back from its text as long as it is not too deep.  Every level of a plan nests an
array and an object, and a leaf nests its object only, so the readers, which accept 127 nested
arrays and objects, give up below 63 levels of a plan, or 62 levels of the plan in a view.
-/

namespace Discussion

namespace Json

/-! ## Records some of whose fields are left out -/

/-- A record with some of its fields, each once, gives these and no others. -/
theorem record_ofMembers_of_sublist {names : List String} {members : List (String × Json)}
    (hnames : (members.map Prod.fst).Sublist names) (hnodup : names.Nodup) (room : Nat) :
    ∃ fields, record names (room + 1) (.ofMembers members) = some fields ∧
      fields.Hold room members ∧
      ∀ name, name ∉ members.map Prod.fst → fields.get? name = none := by
  have hnodup' := hnodup.sublist hnames
  have hgiven := givenFields?_of_nodup (fun m hm => hnames.subset (List.mem_map_of_mem hm)) hnodup'
  refine ⟨_, ?_, hold_reverse hnodup' room, fun name hname => lookup_eq_none_of_notMem ?_⟩
  · rw [ofMembers_eq, record, hgiven]
    rfl
  · rw [List.map_reverse, List.mem_reverse]
    exact hname

theorem Fields.withDefault_of_get?_eq_none {fields : Fields} {name : String}
    (h : fields.get? name = none) {α : Type} (decode : Decoder α) (default : α) :
    fields.withDefault name decode default = some default := by
  rw [Fields.withDefault, h]

end Json

/-! ## Decisions -/

theorem Disposition.ofJson?_toJson (room : Nat) (d : Disposition) :
    ofJson? room d.toJson = some d := by
  cases d <;> rfl

namespace Decision

/-- The members of the record of a decision. -/
def members (d : Decision) (children : List Json) : List (String × Json) :=
  [("comment_id", d.comment.toJson), ("disposition", d.disposition.toJson)] ++
    (if d.lowQuality then [("low_quality", .bool true)] else []) ++
    [("childless", .bool d.childless)] ++
    (if children.isEmpty then [] else [("children", .array children)])

theorem toJson_eq (d : Decision) (children : List Json) :
    d.toJson children = .ofMembers (d.members children) := rfl

theorem sublist_fieldNames (d : Decision) (children : List Json) :
    ((d.members children).map Prod.fst).Sublist fieldNames := by
  unfold members fieldNames
  cases d.lowQuality <;> cases children.isEmpty <;> simp

/-- The record of a decision gives the decision back, and the trees below it if there are any. -/
theorem exists_fields (d : Decision) (children : List Json) (room : Nat) :
    ∃ fields, Json.record fieldNames (room + 1) (d.toJson children) = some fields ∧
      ofFields? fields = some d ∧
      fields.get? "children" = if children.isEmpty then none else some (.array children) := by
  obtain ⟨fields, hrecord, hfields, hothers⟩ := Json.record_ofMembers_of_sublist
    (d.sublist_fieldNames children) (by simp [fieldNames]) room
  rw [toJson_eq]
  refine ⟨fields, hrecord, ?_, ?_⟩
  · have hcomment : fields.required "comment_id" CommentId.ofJson? = some d.comment :=
      hfields.required (CommentId.ofJson?_toJson _ _) (by simp [members])
    have hdisposition : fields.required "disposition" Disposition.ofJson? = some d.disposition :=
      hfields.required (Disposition.ofJson?_toJson _ _) (by simp [members])
    have hlowQuality : fields.withDefault "low_quality" Json.flag false = some d.lowQuality := by
      cases hmark : d.lowQuality with
      | true => exact hfields.withDefault (Json.flag_bool _ true) (by simp [members, hmark])
      | false =>
          refine Json.Fields.withDefault_of_get?_eq_none (hothers _ ?_) _ _
          cases hempty : children.isEmpty <;> simp [members, hmark, hempty]
    have hchildless : fields.required "childless" Json.flag = some d.childless :=
      hfields.required (Json.flag_bool _ _) (by simp [members])
    rw [ofFields?]
    simp only [Option.bind_eq_bind, Option.bind_some, hcomment, hdisposition, hlowQuality,
      hchildless]
  · cases hempty : children.isEmpty with
    | true =>
        refine hothers _ ?_
        cases hmark : d.lowQuality <;> simp [members, hmark, hempty]
    | false => exact hfields.get?_eq (by simp [members, hempty])

theorem isPlain_toJson (d : Decision) {children : List Json}
    (h : ∀ child ∈ children, child.IsPlain) : (d.toJson children).IsPlain := by
  have hchildren : (Json.array children).IsPlain := (Json.arePlain_iff children).mpr h
  rw [toJson_eq]
  refine Json.isPlain_ofMembers ?_
  simp only [members, List.forall_mem_append, List.forall_mem_cons, List.not_mem_nil,
    false_implies, implies_true, and_true]
  refine ⟨⟨⟨⟨d.comment.isPlain_toJson, rfl⟩, ?_⟩, trivial⟩, ?_⟩
  · cases d.lowQuality <;> simp [Json.IsPlain]
  · cases children.isEmpty <;> simp [hchildren]

end Decision

namespace Plan

/-! ## Plans -/

theorem treesToJson_nil : treesToJson .nil = [] := by
  rw [treesToJson, Forest.fold_eq, Forest.foldFrom]

theorem treesToJson_node (d : Decision) (children siblings : Plan) :
    treesToJson (.node d children siblings) =
      d.toJson children.treesToJson :: treesToJson siblings := by
  simp only [treesToJson, Forest.fold_eq, Forest.foldFrom]

theorem isEmpty_treesToJson (plan : Plan) : plan.treesToJson.isEmpty = plan.isEmpty := by
  cases plan with
  | nil => rw [treesToJson_nil]; rfl
  | node d children siblings => rw [treesToJson_node]; rfl

theorem isPlain_treesToJson (plan : Plan) : ∀ tree ∈ plan.treesToJson, tree.IsPlain := by
  induction plan with
  | nil => simp [treesToJson_nil]
  | node d children siblings ihc ihs =>
      rw [treesToJson_node, List.forall_mem_cons]
      exact ⟨d.isPlain_toJson ihc, ihs⟩

theorem isPlain_toJson (plan : Plan) : plan.toJson.IsPlain := by
  refine Json.isPlain_ofMembers ?_
  simp only [List.forall_mem_cons, List.not_mem_nil, false_implies, implies_true, and_true]
  exact (Json.arePlain_iff _).mpr plan.isPlain_treesToJson

/-- A tree is read where there is room for all its levels. -/
theorem treeOfJson?_toJson (d : Decision) {children : Plan}
    (h : ∀ room, treesOfJson? room (.array children.treesToJson) =
      if room ≠ 0 ∧ 2 * children.height ≤ room then some children.roots else none) (room : Nat) :
    treeOfJson? room (d.toJson children.treesToJson) =
      if 2 * (1 + children.height) ≤ room + 1 then some { label := d, children := children }
      else none := by
  cases room with
  | zero => rw [treeOfJson?, if_neg (by omega)]
  | succ room =>
      obtain ⟨fields, hrecord, hdecision, hchildren⟩ := d.exists_fields children.treesToJson room
      -- Without replies nothing but the object of the decision is nested.
      rw [isEmpty_treesToJson] at hchildren
      rw [treeOfJson?]
      simp only [Option.bind_eq_bind, hrecord, Option.bind_some, hdecision, hchildren]
      cases children with
      | nil => simp [Forest.isEmpty, Forest.height, Forest.ofTrees_nil]
      | node reply replies others =>
          simp only [Forest.isEmpty, Bool.false_eq_true, if_false, h]
          by_cases hroom : 2 * (1 + Forest.height (.node reply replies others)) ≤ room + 1 + 1
          · have hinside : room ≠ 0 ∧ 2 * Forest.height (.node reply replies others) ≤ room := by
              simp only [Forest.height] at hroom ⊢
              omega
            rw [if_pos hroom, if_pos hinside, Option.bind_some, Forest.ofTrees_roots]
          · rw [if_neg hroom, if_neg (by omega), Option.bind_none]

/-- The trees of a plan are read where there is room for all their levels. -/
theorem mapM_treeOfJson?_treesToJson (plan : Plan) (room : Nat) :
    plan.treesToJson.mapM (treeOfJson? room) =
      if 2 * plan.height ≤ room + 1 then some plan.roots else none := by
  induction plan generalizing room with
  | nil => simp [treesToJson_nil, Forest.height, Forest.roots]
  | node d children siblings ihc ihs =>
      -- The replies stand in an array of their own, for which there has to be room too.
      have hchildren : ∀ room, treesOfJson? room (.array (treesToJson children)) =
          if room ≠ 0 ∧ 2 * children.height ≤ room then some children.roots else none := by
        rintro (_ | inside)
        · rw [treesOfJson?]
          · rw [if_neg (by omega)]
          · simp
        · rw [treesOfJson?, ihc]
          simp
      have hheight : 2 * Forest.height (.node d children siblings) ≤ room + 1 ↔
          2 * (1 + children.height) ≤ room + 1 ∧ 2 * siblings.height ≤ room + 1 := by
        rw [Forest.height]
        omega
      rw [treesToJson_node, List.mapM_cons, treeOfJson?_toJson d hchildren, ihs]
      by_cases hfirst : 2 * (1 + children.height) ≤ room + 1
      · by_cases hrest : 2 * siblings.height ≤ room + 1
        · rw [if_pos hfirst, if_pos hrest, if_pos (hheight.mpr ⟨hfirst, hrest⟩)]
          rfl
        · rw [if_pos hfirst, if_neg hrest, if_neg fun h => hrest (hheight.mp h).2]
          rfl
      · rw [if_neg hfirst, if_neg fun h => hfirst (hheight.mp h).1]
        rfl

/-- A plan is read back exactly where there is room for all its levels. -/
theorem ofJson?_toJson (plan : Plan) (room : Nat) :
    ofJson? (room + 2) plan.toJson = if 2 * plan.height ≤ room + 1 then some plan else none := by
  obtain ⟨fields, hrecord, hfields⟩ := Json.record_ofMembers ["nodes"]
    [("nodes", .array plan.treesToJson)] rfl (by simp) (room + 1)
  have hnodes : fields.get? "nodes" = some (.array plan.treesToJson) :=
    hfields.get?_eq (by simp)
  have hread : fields.required "nodes" treesOfJson? =
      if 2 * plan.height ≤ room + 1 then some plan.roots else none := by
    rw [Json.Fields.required, hnodes, hfields.room_eq]
    exact (treesOfJson?.eq_1 room _).trans (plan.mapM_treeOfJson?_treesToJson room)
  rw [ofJson?, toJson, hrecord]
  simp only [Option.bind_eq_bind, Option.bind_some, hread]
  by_cases h : 2 * plan.height ≤ room + 1
  · rw [if_pos h, if_pos h, Option.bind_some, Forest.ofTrees_roots]
  · rw [if_neg h, if_neg h, Option.bind_none]

/-- What a text that stands for the JSON value of a plan is read as. -/
theorem ofText_of_toJson {plan : Plan} {s : String} (hs : Json.ofText? s = some plan.toJson) :
    ofText s = if plan.height ≤ 63 then .ok plan else .error (.serialization "not a plan") := by
  have hvalue : Json.decode? ofJson? plan.toJson =
      if 2 * plan.height ≤ 126 then some plan else none := ofJson?_toJson plan 125
  rw [ofText, hs, Option.bind_some, hvalue]
  by_cases h : plan.height ≤ 63
  · rw [if_pos (by omega), if_pos h]
  · rw [if_neg (by omega), if_neg h]

end Plan

/-! ## Views -/

theorem RenderMode.ofJson?_toJson (room : Nat) (mode : RenderMode) :
    ofJson? room mode.toJson = some mode := by
  cases mode <;> rfl

namespace ThreadView

/-- The members of the record of a view. -/
def members (view : ThreadView) : List (String × Json) :=
  view.summary ++ [("plan", view.plan.toJson)]

theorem sublist_fieldNames (view : ThreadView) :
    (view.members.map Prod.fst).Sublist fieldNames := by
  unfold members summary fieldNames
  cases view.permalink <;> simp

theorem isPlain_toJson (view : ThreadView) : view.toJson.IsPlain := by
  refine Json.isPlain_ofMembers ?_
  simp only [summary, List.forall_mem_append, List.forall_mem_cons, List.not_mem_nil,
    false_implies, implies_true, and_true]
  refine ⟨⟨⟨view.commentable.isPlain_toJson, Json.isPlain_ofWord _, rfl, trivial⟩, ?_⟩,
    view.plan.isPlain_toJson⟩
  cases view.permalink with
  | none => simp
  | some id => simpa using id.isPlain_toJson

/-- A view is read back exactly where there is room for its plan. -/
theorem ofJson?_toJson (view : ThreadView) (room : Nat) :
    ofJson? (room + 3) view.toJson =
      if 2 * view.plan.height ≤ room + 1 then some view else none := by
  obtain ⟨fields, hrecord, hfields, hothers⟩ := Json.record_ofMembers_of_sublist
    view.sublist_fieldNames (by simp [fieldNames]) (room + 2)
  have hcommentable : fields.required "commentable" Reference.ofJson? = some view.commentable :=
    hfields.required (Reference.ofJson?_toJson _ _) (by simp [members, summary])
  have htotal : fields.required "total_comments" Json.word = some view.totalComments :=
    hfields.required (Json.word_ofWord _ _) (by simp [members, summary])
  have hmode : fields.required "mode" RenderMode.ofJson? = some view.mode :=
    hfields.required (RenderMode.ofJson?_toJson _ _) (by simp [members, summary])
  have hvisible : fields.required "all_comments_visible" Json.flag = some view.allVisible :=
    hfields.required (Json.flag_bool _ _) (by simp [members, summary])
  have hpermalink : fields.withDefault "permalink_root" (Json.nullable CommentId.ofJson?) none =
      some view.permalink := by
    cases hroot : view.permalink with
    | none =>
        exact Json.Fields.withDefault_of_get?_eq_none
          (hothers _ (by simp [members, summary, hroot])) _ _
    | some id =>
        have hvalue : Json.nullable CommentId.ofJson? (room + 2) id.toJson = some (some id) := by
          change (CommentId.ofJson? (room + 2) id.toJson).map some = _
          rw [CommentId.ofJson?_toJson, Option.map_some]
        exact hfields.withDefault hvalue (by simp [members, summary, hroot])
  have hplan : fields.required "plan" Plan.ofJson? =
      if 2 * view.plan.height ≤ room + 1 then some view.plan else none := by
    have hvalue : fields.get? "plan" = some view.plan.toJson :=
      hfields.get?_eq (by simp [members])
    rw [Json.Fields.required, hvalue, hfields.room_eq]
    exact view.plan.ofJson?_toJson room
  rw [ofJson?, toJson, ← members, hrecord]
  simp only [Option.bind_eq_bind, Option.bind_some, hcommentable, htotal, hmode, hvisible,
    hpermalink, hplan]
  by_cases h : 2 * view.plan.height ≤ room + 1
  · rw [if_pos h, if_pos h, Option.bind_some]
  · rw [if_neg h, if_neg h, Option.bind_none]

/-- What a text that stands for the JSON value of a view is read as. -/
theorem ofText_of_toJson {view : ThreadView} {s : String}
    (hs : Json.ofText? s = some view.toJson) :
    ofText s =
      if view.plan.height ≤ 62 then .ok view else .error (.serialization "not a view") := by
  have hvalue : Json.decode? ofJson? view.toJson =
      if 2 * view.plan.height ≤ 125 then some view else none :=
    view.ofJson?_toJson 124
  rw [ofText, hs, Option.bind_some, hvalue]
  by_cases h : view.plan.height ≤ 62
  · rw [if_pos (by omega), if_pos h]
  · rw [if_neg (by omega), if_neg h]

end ThreadView

/-! ## The depths up to which they are read back -/

/-- A value with a plan in it and the texts that stand for it, up to a depth of the plan: where no
row is deeper the texts are read back, and where some row is they are refused. -/
structure IsReadBackUpTo {α : Type} (bound : Nat) (plan : Plan) (ofText : String → Except Fault α)
    (value : α) (json : Json) : Prop where
  read_back : (∀ row ∈ plan.rows, row.1 ≤ bound) →
    ofText json.compact = .ok value ∧ ofText json.pretty = .ok value
  refused : (∃ row ∈ plan.rows, bound < row.1) → ∃ message,
    ofText json.compact = .error (.serialization message) ∧
      ofText json.pretty = .error (.serialization message)

/-- Reading that gives up above a height gives up below a depth. -/
theorem isReadBackUpTo_of_height {α : Type} {bound : Nat} {plan : Plan}
    {ofText : String → Except Fault α} {value : α} {json : Json} {message : String}
    (h : ∀ s, Json.ofText? s = some json → ofText s =
      if plan.height ≤ bound + 1 then .ok value else .error (.serialization message))
    (hplain : json.IsPlain) : IsReadBackUpTo bound plan ofText value json := by
  have hcompact := h json.compact (Json.ofText?_compact hplain)
  have hpretty := h json.pretty (Json.ofText?_pretty hplain)
  have hheight := Forest.forall_rows_depth_le_iff plan bound
  refine ⟨fun hrows => ?_, ?_⟩
  · rw [if_pos (hheight.mp hrows)] at hcompact hpretty
    exact ⟨hcompact, hpretty⟩
  · rintro ⟨row, hrow, hdeep⟩
    have hhigh : ¬ plan.height ≤ bound + 1 := fun hle => by
      have := hheight.mpr hle row hrow
      omega
    rw [if_neg hhigh] at hcompact hpretty
    exact ⟨message, hcompact, hpretty⟩

/-- Plans are read back down to depth 62, and the plans of views down to depth 61, whether the view
has a permalink or not; a plan that is deeper can be written but not read. -/
theorem plan_and_view_readBack :
    (∀ plan : Plan, IsReadBackUpTo 62 plan Plan.ofText plan plan.toJson) ∧
      ∀ view : ThreadView, IsReadBackUpTo 61 view.plan ThreadView.ofText view view.toJson :=
  ⟨fun plan => isReadBackUpTo_of_height (fun _ => Plan.ofText_of_toJson) plan.isPlain_toJson,
    fun view =>
      isReadBackUpTo_of_height (fun _ => ThreadView.ofText_of_toJson) view.isPlain_toJson⟩

/-- A plan in which every reply is the only one. -/
def Plan.chain : Nat → Plan
  | 0 => .nil
  | n + 1 =>
      .node { comment := ⟨1⟩, disposition := .full, childless := n = 0 } (chain n) .nil

theorem Plan.height_chain (n : Nat) : (chain n).height = n := by
  induction n with
  | zero => rfl
  | succ n ih =>
      rw [chain, Forest.height, ih, Forest.height]
      omega

/-- A chain of 63 comments, or of 62 in a view, is the longest that is read back. -/
theorem plan_and_view_readBack_chain :
    let view (n : Nat) : ThreadView :=
      { commentable := { kind := .article, id := 1 }, totalComments := 1, mode := .fullThread,
        allVisible := true, permalink := some ⟨1⟩, plan := Plan.chain n }
    Plan.ofText (Plan.chain 63).toJson.compact = .ok (Plan.chain 63) ∧
      (∃ message, Plan.ofText (Plan.chain 64).toJson.compact = .error (.serialization message)) ∧
      ThreadView.ofText (view 62).toJson.pretty = .ok (view 62) ∧
      ∃ message, ThreadView.ofText (view 63).toJson.pretty = .error (.serialization message) := by
  intro view
  have hshallow : ∀ n, ∀ row ∈ (Plan.chain (n + 1)).rows, row.1 ≤ n := fun n =>
    (Forest.forall_rows_depth_le_iff _ n).mpr (Plan.height_chain (n + 1)).le
  have hdeep : ∀ n, ∃ row ∈ (Plan.chain (n + 2)).rows, n < row.1 := by
    intro n
    by_contra! hall
    have hle := (Forest.forall_rows_depth_le_iff _ n).mp hall
    rw [Plan.height_chain] at hle
    omega
  obtain ⟨message, hplan, -⟩ := (plan_and_view_readBack.1 (Plan.chain 64)).refused (hdeep 62)
  obtain ⟨other, -, hview⟩ := (plan_and_view_readBack.2 (view 63)).refused (hdeep 61)
  exact ⟨((plan_and_view_readBack.1 (Plan.chain 63)).read_back (hshallow 62)).1, ⟨message, hplan⟩,
    ((plan_and_view_readBack.2 (view 62)).read_back (hshallow 61)).2, other, hview⟩

end Discussion
