import Discussion.Commentable.Basic
import Discussion.Instant.Basic

/-!
# Comments

A comment as its source delivers it.  Its parent is a claim of the source: the
parent may be missing, or belong to another commentable.
-/

namespace Discussion

/-- A comment on a commentable. -/
structure Comment where
  id : CommentId
  /-- The comment this one replies to, if any. -/
  parent : Option CommentId := none
  commentable : Reference
  /-- The author. -/
  user : UserId
  /-- What readers and moderators made of the comment. -/
  score : Int64 := 0
  /-- Whether an author of the commentable hid the comment. -/
  hidden : Bool := false
  /-- Whether the comment's text is gone. -/
  deleted : Bool := false
  createdAt : Instant
deriving DecidableEq, Repr, Inhabited

namespace Comment

/-- Whether the comment claims no parent. -/
def isRoot (c : Comment) : Bool :=
  c.parent.isNone

/-- The author's number, or zero for a deleted comment, whose author is not told. -/
def userUnlessDeleted (c : Comment) : UInt64 :=
  if c.deleted then 0 else c.user.value

/-- Whether the score is below zero. -/
def isNegative (c : Comment) : Bool :=
  c.score < 0

end Comment

end Discussion
