import Discussion.Proofs.Forest.Evaluation
import Discussion.Proofs.Plan.Decision

/-!
# Plans decided comment by comment

A thread is walked from each of its roots with a stack of comments whose replies are still being
decided.  A comment that an anonymous viewer is denied is not opened: it is decided at once,
together with all that stands below it, by a walk of its own that leaves everything out.  Any
other comment is opened, with the depth and the revealing that its replies inherit, and settled
when its replies are decided.  The trees that are found for the roots make up the plan.
-/

namespace Discussion

namespace Request

/-- Leaves a comment out, with replies that are left out. -/
def leaveOut (c : Comment) (replies : List (Tree Decision)) : Tree Decision :=
  { label := { comment := c.id, disposition := .omit, childless := true }
    children := .ofTrees replies }

/-- Leaves a comment and all that stands below it out. -/
def leaveOutAll (tree : Tree Comment) : Tree Decision :=
  tree.evaluate (fun _ _ => .opened ()) (fun _ => leaveOut) (.opened ())

/-- What becomes of a comment that is reached at a position. -/
def visit (request : Request) (place : Position) (tree : Tree Comment) :
    Visit Position (Tree Decision) :=
  if request.denies tree.label then .decided (leaveOutAll tree)
  else .opened { place with revealed := place.revealed || request.reveals tree.label }

/-- What becomes of a reply to a comment at a position. -/
def visitReply (request : Request) (here : Position) (tree : Tree Comment) :
    Visit Position (Tree Decision) :=
  request.visit { here with depth := here.depth + 1 } tree

/-- Decides about a comment from the decisions about its replies. -/
def settle (request : Request) (here : Position) (c : Comment) (replies : List (Tree Decision)) :
    Tree Decision :=
  let childless := !replies.any fun reply => reply.label.isRendered
  let disposition := request.disposition here childless c
  { label :=
      { comment := c.id
        disposition := disposition
        lowQuality := disposition == .full && request.classify c == .lowQuality
        childless := childless }
    children := .ofTrees replies }

/-- Decides about a comment that is reached at a position and about all that stands below it. -/
def walkFrom (request : Request) (place : Position) (tree : Tree Comment) : Tree Decision :=
  tree.evaluate request.visitReply request.settle (request.visit place tree)

theorem leaveOutAll_eq (tree : Tree Comment) :
    leaveOutAll tree = leaveOut tree.label (tree.children.trees.map leaveOutAll) := by
  rw [leaveOutAll, Tree.evaluate, OpenNode.evaluate_eq, Forest.valuesFrom_eq_map]
  rfl

/-- Where the viewer was denied a comment above, everything is left out. -/
theorem planFrom_of_denied
    {request : Request} {place : Position} (h : place.denied = true) (thread : Thread) :
    request.planFrom place thread = .ofTrees (thread.trees.map leaveOutAll) := by
  rw [Forest.trees_eq]
  induction thread generalizing place with
  | nil => rfl
  | node c replies siblings ihc ihs =>
      have hhere : (request.enter place c).denied = true := by
        rw [enter, h, Bool.true_or]
      have hbelow : (request.descend place c).denied = true := hhere
      rw [planFrom_node, ihc hbelow, ihs h, decide_of_denied hhere, Forest.roots, List.map_cons,
        Forest.ofTrees_cons, leaveOutAll_eq, Forest.trees_eq]
      rfl

theorem label_settle {request : Request} {here : Position} (h : here.denied = false) (c : Comment)
    (replies : List (Tree Decision)) :
    (request.settle here c replies).label = request.decide here c (.ofTrees replies) := by
  rw [decide_of_not_denied h, Forest.anyRoot_ofTrees]
  rfl

theorem walkFrom_of_denies
    {request : Request} {tree : Tree Comment} (h : request.denies tree.label = true)
    (place : Position) :
    request.walkFrom place tree = leaveOutAll tree := by
  rw [walkFrom, visit, if_pos h, Tree.evaluate]

/-- A comment that is not denied is settled when its replies were walked. -/
theorem walkFrom_of_not_denies
    {request : Request} {tree : Tree Comment} (h : request.denies tree.label = false)
    (place : Position) :
    request.walkFrom place tree =
      request.settle (request.enter place tree.label) tree.label
        (tree.children.trees.map (request.walkFrom (request.descend place tree.label))) := by
  have hhere : { place with revealed := place.revealed || request.reveals tree.label } =
      request.enter place tree.label := by
    rw [enter, h, Bool.or_false]
  rw [walkFrom, visit, if_neg (Bool.eq_false_iff.mp h), hhere, Tree.evaluate,
    OpenNode.evaluate_eq, Forest.valuesFrom_eq_map]
  rfl

/-- The trees that are walked one after the other make up the plan at a position. -/
theorem ofTrees_map_walkFrom
    (request : Request) {place : Position} (h : place.denied = false) (thread : Thread) :
    .ofTrees (thread.trees.map (request.walkFrom place)) = request.planFrom place thread := by
  rw [Forest.trees_eq]
  induction thread generalizing place with
  | nil => rfl
  | node c replies siblings ihc ihs =>
      rw [Forest.roots, List.map_cons, Forest.ofTrees_cons, ihs h, planFrom_node]
      cases hdenies : request.denies c with
      | true =>
          have hhere : (request.enter place c).denied = true := by
            rw [enter, hdenies, Bool.or_true]
          have hbelow : (request.descend place c).denied = true := hhere
          rw [walkFrom_of_denies hdenies, leaveOutAll_eq, planFrom_of_denied hbelow,
            decide_of_denied hhere]
          rfl
      | false =>
          have hhere : (request.enter place c).denied = false := by
            rw [enter, h, hdenies, Bool.or_false]
          have hbelow : (request.descend place c).denied = false := hhere
          rw [walkFrom_of_not_denies hdenies, label_settle hhere, Forest.trees_eq, ihc hbelow]
          exact congrArg (Forest.node _ · _) (ihc hbelow)

/-- The plan for a thread consists of what is decided for its roots, one after the other. -/
theorem trees_plan_eq_map_walkFrom (request : Request) (thread : Thread) :
    (request.plan thread).trees = thread.trees.map (request.walkFrom {}) := by
  rw [plan_eq, ← request.ofTrees_map_walkFrom rfl thread, Forest.trees_ofTrees]

end Request

end Discussion
