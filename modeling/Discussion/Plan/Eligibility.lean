import Discussion.Plan.Basic
import Discussion.Thread.Basic
import Discussion.Visibility

/-!
# Eligibility

Decides for every comment of a thread how it is shown to a viewer.  Three things
are inherited from a comment to its replies: the depth; whether a permalink to a
hidden comment revealed it; and whether an anonymous viewer was denied it.  The
decision about a comment further depends on whether any of its replies is shown,
so replies are decided first.
-/

namespace Discussion

/-- Who asks for a plan, and how. -/
structure Request where
  thresholds : Thresholds
  viewer : Viewer
  /-- The comment that was opened by its permalink, if any. -/
  permalink : Option CommentId

/-- What a comment inherits from those above it. -/
structure Position where
  depth : Nat := 0
  /-- Whether hidden comments are revealed here. -/
  revealed : Bool := false
  /-- Whether the viewer was denied a comment above. -/
  denied : Bool := false
deriving DecidableEq, Repr

namespace Request

/-- The class of a comment for the viewer. -/
def classify (request : Request) (c : Comment) : Visibility :=
  request.thresholds.classify request.viewer c.score

/-- Whether the viewer is anonymous and may see neither the comment nor any reply to it. -/
def denies (request : Request) (c : Comment) : Bool :=
  !c.deleted && request.classify c == .suppressed && !request.viewer.isSignedIn

/-- Whether the comment was opened by its permalink although it is hidden. -/
def reveals (request : Request) (c : Comment) : Bool :=
  request.permalink == some c.id && c.hidden

/-- The position of a comment itself, from what it inherits. -/
def enter (request : Request) (place : Position) (c : Comment) : Position :=
  { place with
    revealed := place.revealed || request.reveals c
    denied := place.denied || request.denies c }

/-- What the replies to a comment inherit. -/
def descend (request : Request) (place : Position) (c : Comment) : Position :=
  let here := request.enter place c
  { here with depth := here.depth + 1 }

/-- Whether a comment is left out when none of its replies is shown. -/
def dropsWhenChildless (request : Request) (depth : Nat) (c : Comment) : Bool :=
  match request.classify c with
  | .suppressed => true
  | .lowQuality => depth == 0 && request.permalink.isNone && !request.viewer.isModerator
  | .visible => false

/-- How a comment is shown whose viewer was not denied it. -/
def disposition (request : Request) (here : Position) (childless : Bool) (c : Comment) :
    Disposition :=
  if c.deleted then .deletedPlaceholder
  else if childless && request.dropsWhenChildless here.depth c then .omit
  else if request.classify c == .suppressed then .deletedPlaceholder
  else if c.hidden && !here.revealed then .hiddenPlaceholder
  else .full

/-- The decision about a comment from the plan for its replies. -/
def decide (request : Request) (here : Position) (c : Comment) (replies : Plan) : Decision :=
  if here.denied then { comment := c.id, disposition := .omit, childless := true }
  else
    let childless := !replies.anyRoot Decision.isRendered
    let disposition := request.disposition here childless c
    { comment := c.id
      disposition := disposition
      lowQuality := disposition == .full && request.classify c == .lowQuality
      childless := childless }

/-- The plan for a thread. -/
def plan (request : Request) (thread : Thread) : Plan :=
  Forest.fold request.descend Forest.nil
    (fun place c replies siblings =>
      .node (request.decide (request.enter place c) c replies) replies siblings)
    {} thread

/-- The plan for a thread, reported. -/
def walk (request : Request) (thread : Thread) : Logged Plan := do
  let plan := request.plan thread
  Logged.report (.planned request.viewer plan.renderedCount thread.count)
  pure plan

end Request

end Discussion
