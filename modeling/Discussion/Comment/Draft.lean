import Discussion.Comment.Basic
import Discussion.Fault

/-!
# Drafts

A comment in the making.  A draft starts as a root comment of nobody with a
score of zero; a comment that replies to itself cannot be made from it.
-/

namespace Discussion

/-- A comment in the making. -/
structure Draft where
  id : CommentId
  commentable : Reference
  parent : Option CommentId := none
  user : UserId := ⟨0⟩
  score : Int64 := 0
  hidden : Bool := false
  deleted : Bool := false
  /-- The time of creation; the present if not given. -/
  createdAt : Option Instant := none
deriving DecidableEq, Repr, Inhabited

/-- The comment of a draft at the present time `now`. -/
def Draft.build (draft : Draft) (now : Instant) : Except Fault Comment :=
  if draft.parent = some draft.id then .error (.invalidArgument (.ownParent draft.id))
  else
    .ok {
      id := draft.id
      parent := draft.parent
      commentable := draft.commentable
      user := draft.user
      score := draft.score
      hidden := draft.hidden
      deleted := draft.deleted
      createdAt := draft.createdAt.getD now }

end Discussion
