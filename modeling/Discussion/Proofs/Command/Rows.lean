import Discussion.Command.Rows
import Discussion.Proofs.Forest.Preorder

/-!
# The rows of a plan

A plan is printed as a list of rows.  The list loses nothing: every row tells which node of the
plan it stands for, what was decided there and who the parent is, and no other plan has the same
rows, whatever scores are printed with them.
-/

namespace Discussion

namespace Row

/-- What a row tells to have been decided. -/
def decision (row : Row) : Decision where
  comment := row.comment
  disposition := row.disposition
  lowQuality := row.lowQuality
  childless := row.childless

/-- Whether a row stands for the node at an address of a plan: it tells what was decided there,
how many nodes are above it, and the comment of the last one of these. -/
structure StandsFor (row : Row) (plan : Plan) (address : List Nat) : Prop where
  decision : ∃ tree, plan.treeAt? address = some tree ∧ row.decision = tree.label
  depth : row.depth = (plan.above address).length
  parent : row.parent = (plan.above address).getLast?.map (·.comment)

/-- Whether a row has no parent, or has that of which the last row before it tells that is one step
less deep. -/
def FollowsParent (row : Row) (before : List Row) : Prop :=
  row.depth = 0 ∧ row.parent = none ∨
    ∃ earlier top between, before = earlier ++ top :: between ∧ row.depth = top.depth + 1 ∧
      row.parent = some top.comment ∧ ∀ other ∈ between, row.depth ≠ other.depth + 1

/-- The row of a node, from its depth, the decision about its parent and its own. -/
def ofEntry (scores : Scores) (entry : Nat × Option Decision × Decision) : Row where
  comment := entry.2.2.comment
  parent := entry.2.1.map (·.comment)
  depth := entry.1
  disposition := entry.2.2.disposition
  lowQuality := entry.2.2.lowQuality
  childless := entry.2.2.childless
  score := scores[entry.2.2.comment]?

end Row

namespace Plan

variable {plan other : Plan} {scores scores' : Scores}

theorem toRows_eq (plan : Plan) (scores : Scores) :
    plan.toRows scores = (Forest.rowsFrom 0 none plan).map (Row.ofEntry scores) := by
  rw [toRows, Forest.rows_eq]
  rfl

theorem map_decision_toRows (plan : Plan) (scores : Scores) :
    (plan.toRows scores).map Row.decision = plan.labels := by
  rw [toRows_eq, List.map_map, ← Forest.map_label_rows, Forest.rows_eq]
  rfl

theorem forall₂_standsFor (plan : Plan) (scores : Scores) :
    List.Forall₂ (fun address row => row.StandsFor plan address) plan.addresses
      (plan.toRows scores) := by
  rw [toRows_eq, List.forall₂_map_right_iff]
  refine (Forest.forall₂_rowsFrom 0 none plan).imp fun address entry => ?_
  rintro ⟨tree, htree, rfl⟩
  refine ⟨⟨tree, htree, rfl⟩, Nat.zero_add _, ?_⟩
  exact congrArg (Option.map Decision.comment) Option.or_none

theorem isChain_toRows (plan : Plan) (scores : Scores) :
    (plan.toRows scores).IsChain fun row next => next.depth ≤ row.depth + 1 := by
  rw [toRows_eq, List.isChain_map]
  exact Forest.isChain_rowsFrom 0 none plan

theorem depth_head?_toRows {row : Row} (h : row ∈ (plan.toRows scores).head?) :
    row.depth = 0 := by
  rw [toRows_eq, List.head?_map] at h
  obtain ⟨entry, hentry, rfl⟩ := Option.map_eq_some_iff.mp h
  exact Forest.head?_rowsFrom hentry

theorem followsParent_of_toRows {before after : List Row} {row : Row}
    (h : plan.toRows scores = before ++ row :: after) : row.FollowsParent before := by
  rw [toRows_eq] at h
  obtain ⟨passed, rest, hentries, rfl, hrest⟩ := List.map_eq_append_iff.mp h
  obtain ⟨entry, left, rfl, rfl, rfl⟩ := List.map_eq_cons_iff.mp hrest
  rcases Forest.parent_of_rowsFrom hentries with
    ⟨hdepth, hparent⟩ | ⟨earlier, top, between, rfl, hdepth, hparent, hdeep⟩
  · exact Or.inl ⟨hdepth, congrArg (Option.map Decision.comment) hparent⟩
  · right
    refine ⟨earlier.map (Row.ofEntry scores), Row.ofEntry scores top,
      between.map (Row.ofEntry scores), List.map_append, hdepth,
      congrArg (Option.map Decision.comment) hparent, fun row hrow => ?_⟩
    obtain ⟨entry', hentry', rfl⟩ := List.mem_map.mp hrow
    have hle := hdeep entry' hentry'
    change entry.1 ≠ entry'.1 + 1
    omega

/-- Plans with the same rows are equal. -/
theorem eq_of_toRows_eq (h : plan.toRows scores = other.toRows scores') : plan = other := by
  have houtline : ∀ (plan : Plan) (scores : Scores),
      (plan.toRows scores).map (fun row => (row.depth, row.decision)) =
        (Forest.rowsFrom 0 none plan).map Forest.outline := by
    intro plan scores
    rw [toRows_eq, List.map_map]
    rfl
  have hsame : (Forest.rowsFrom 0 none plan).map Forest.outline =
      (Forest.rowsFrom 0 none other).map Forest.outline := by
    rw [← houtline plan scores, ← houtline other scores', h]
  exact Forest.eq_of_outline_rowsFrom hsame

theorem countP_toRows (plan : Plan) (scores : Scores) :
    (plan.toRows scores).countP (fun row => row.disposition != .omit) = plan.renderedCount := by
  rw [renderedCount, ← plan.map_decision_toRows scores, List.countP_map]
  rfl

/-- Whether rows tell a plan and nothing else: one row stands for each node, in preorder. -/
structure IsFlattened (plan : Plan) (rows : List Row) : Prop where
  nodes : ∃ addresses, plan.IsPreorder addresses ∧
    List.Forall₂ (fun address row => row.StandsFor plan address) addresses rows
  decisions : rows.map Row.decision = plan.labels
  first : ∀ row ∈ rows.head?, row.depth = 0
  steps : rows.IsChain fun row next => next.depth ≤ row.depth + 1
  parents : ∀ before row after, rows = before ++ row :: after → row.FollowsParent before
  unique : ∀ (other : Plan) scores, other.toRows scores = rows → other = plan
  rendered : rows.countP (fun row => row.disposition != .omit) = plan.renderedCount

/-- The rows of a plan lose nothing of it. -/
theorem toRows_isFlattened (plan : Plan) (scores : Scores) :
    plan.IsFlattened (plan.toRows scores) where
  nodes := ⟨plan.addresses, plan.isPreorder_addresses, plan.forall₂_standsFor scores⟩
  decisions := plan.map_decision_toRows scores
  first := fun _ hrow => depth_head?_toRows hrow
  steps := plan.isChain_toRows scores
  parents := fun _ _ _ hsplit => followsParent_of_toRows hsplit
  unique := fun _ _ hrows => eq_of_toRows_eq hrows
  rendered := plan.countP_toRows scores

end Plan

end Discussion
