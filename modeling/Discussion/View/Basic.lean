import Discussion.Plan.Eligibility
import Discussion.Settings.Basic

/-!
# Views

All that a page needs to show a thread: the plan, and what a reader should know
about the comments that are missing.  A view is computed from a commentable and
its comments, for the whole thread or for the subtree of a permalink.
-/

namespace Discussion

/-- Whether some comment has a negative score. -/
def anyNegative (comments : List Comment) : Bool :=
  comments.any Comment.isNegative

/-- Whether the viewer sees every comment: none is hidden by an author, and no
negative one is kept from an anonymous viewer. -/
def allVisible (owner : Commentable) (comments : List Comment) (viewer : Viewer) : Bool :=
  !(owner.anyCommentsHidden || (!viewer.isSignedIn && anyNegative comments))

namespace Comment

/-- The style class of a comment on a page. -/
def styleClass (c : Comment) (isViewRoot : Bool) : String :=
  if c.isRoot || isViewRoot then "root" else "child"

/-- Whether the comment was written by an author of the commentable. -/
def isByAuthor (c : Comment) (owner : Commentable) : Bool :=
  owner.isAuthor c.user

/-- Whether search engines should pass over the comment. -/
def isUnindexed (c : Comment) (owner : Commentable) : Bool :=
  c.isNegative || owner.score < 0

end Comment

/-- A thread as a page shows it. -/
structure ThreadView where
  commentable : Reference
  /-- The number of comments that the source delivered. -/
  totalComments : UInt64
  mode : RenderMode
  allVisible : Bool
  /-- The comment that was opened by its permalink, if any. -/
  permalink : Option CommentId := none
  plan : Plan
deriving DecidableEq, Repr

namespace ThreadView

/-- The view of a plan for the comments of a commentable. -/
def ofPlan (settings : Settings) (ref : Reference) (viewer : Viewer) (owner : Commentable)
    (comments : List Comment) (permalink : Option CommentId) (plan : Plan) : ThreadView :=
  let total := UInt64.ofNat comments.length
  { commentable := ref
    totalComments := total
    mode := settings.pages.mode total
    allVisible := Discussion.allVisible owner comments viewer
    permalink := permalink
    plan := plan }

/-- The view of a whole thread. -/
def ofThread (settings : Settings) (ref : Reference) (viewer : Viewer)
    (limit : Option UInt64) (order : Order) (owner : Commentable) (comments : List Comment) :
    Logged (Except Fault ThreadView) := do
  match ← Thread.build comments (settings.pages.limit ref.kind limit) order with
  | .error fault => pure (.error fault)
  | .ok thread => do
      let request : Request :=
        { thresholds := settings.thresholds, viewer := viewer, permalink := none }
      let plan ← request.walk thread
      Logged.report (.rendered ref viewer comments.length plan.renderedCount)
      pure (.ok (ofPlan settings ref viewer owner comments none plan))

/-- The view of a permalink.  A comment that is left out of its own view is
reported as missing. -/
def ofPermalink (settings : Settings) (ref : Reference) (id : CommentId) (viewer : Viewer)
    (owner : Commentable) (comments : List Comment) : Logged (Except Fault ThreadView) := do
  match ← Thread.buildSubtree comments id .oldest with
  | .error fault => pure (.error fault)
  | .ok thread => do
      let request : Request :=
        { thresholds := settings.thresholds, viewer := viewer, permalink := some id }
      let plan ← request.walk thread
      if (plan.find? id).any fun tree => tree.label.isRendered then
        pure (.ok (ofPlan settings ref viewer owner comments (some id) plan))
      else do
        Logged.report (.notVisible id viewer)
        pure (.error (.noComment id))

end ThreadView

end Discussion
