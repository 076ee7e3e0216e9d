import Discussion.Forest.Basic
import Discussion.Identity

/-!
# Plans

How the comments of a thread are shown to a viewer.  A plan has the shape of the
thread; each comment is shown in full, replaced by a placeholder, or left out.
-/

namespace Discussion

/-- How a comment is shown. -/
inductive Disposition
  | full
  /-- A note that a comment was deleted. -/
  | deletedPlaceholder
  /-- A note that a comment was hidden by an author of the commentable. -/
  | hiddenPlaceholder
  /-- The comment is left out. -/
  | omit
deriving DecidableEq, Repr, Inhabited

namespace Disposition

/-- The name of a disposition in data. -/
def name : Disposition → String
  | .full => "full"
  | .deletedPlaceholder => "deleted_placeholder"
  | .hiddenPlaceholder => "hidden_placeholder"
  | .omit => "omit"

/-- Whether anything is shown. -/
def isRendered (d : Disposition) : Bool :=
  d != .omit

end Disposition

/-- What was decided about a comment. -/
structure Decision where
  comment : CommentId
  disposition : Disposition
  /-- Whether the comment is shown with the mark of low quality. -/
  lowQuality : Bool := false
  /-- Whether none of the replies is shown. -/
  childless : Bool
deriving DecidableEq, Repr

/-- Whether anything is shown for the comment. -/
def Decision.isRendered (d : Decision) : Bool :=
  d.disposition.isRendered

/-- A forest of decisions. -/
abbrev Plan := Forest Decision

namespace Plan

/-- The first decision about a comment in preorder, with those about its replies. -/
def find? (plan : Plan) (id : CommentId) : Option (Tree Decision) :=
  Forest.find? (fun d => d.comment == id) plan

/-- How a comment is shown. -/
def disposition? (plan : Plan) (id : CommentId) : Option Disposition :=
  (plan.find? id).map (·.label.disposition)

/-- The number of comments for which anything is shown. -/
def renderedCount (plan : Plan) : Nat :=
  plan.labels.countP Decision.isRendered

/-- Whether nothing at all is shown. -/
def showsNothing (plan : Plan) : Bool :=
  plan.renderedCount == 0

end Plan

end Discussion
