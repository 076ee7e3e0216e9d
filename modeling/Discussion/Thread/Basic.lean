import Discussion.Forest.Growth
import Discussion.Thread.Roster

/-!
# Threads

The comments of a commentable as a forest of replies, siblings in a given order.
A limit bounds the number of roots only.  Comments whose parents lead round in a
circle hang below no root and are left out of the thread, with a warning; a
subtree may still start at one of them, and then holds each comment once.
-/

namespace Discussion

/-- A forest of comments. -/
abbrev Thread := Forest Comment

namespace Thread

/-- The whole forest of a roster. -/
def ofRoster (roster : Roster) (order : Order) : Thread :=
  let replies := roster.replies
  Forest.growLevels (fun c => order.sort (replies.getD c.id [])) roster.members.size
    (order.sort roster.roots)

/-- The forest with one root, which is nobody's reply in it. -/
def subtreeOfRoster (roster : Roster) (root : Comment) (order : Order) : Thread :=
  let replies := roster.replies
  Forest.growLevels
    (fun c => order.sort ((replies.getD c.id []).filter fun reply => reply.id != root.id))
    roster.members.size [root]

/-- The warning about comments that hang below no root. -/
def unreachableWarning (roster : Roster) (thread : Thread) : Logged Unit :=
  let lost := roster.members.size - thread.count
  if lost > 0 then Logged.report (.unreachable lost) else pure ()

/-- The thread of a list of comments with its first `limit` roots. -/
def build (comments : List Comment) (limit : UInt64) (order : Order) :
    Logged (Except Fault Thread) :=
  if limit = 0 then pure (.error (.invalidArgument .zeroLimit))
  else do
    let roster := Roster.ofList comments
    let whole := ofRoster roster order
    let thread := whole.take limit.toNat
    { events := roster.warnings, value := () : Logged Unit }
    unreachableWarning roster whole
    Logged.report (.builtThread thread.rootCount whole.rootCount thread.count comments.length order)
    pure (.ok thread)

/-- The subtree of a list of comments that starts at the comment with a number. -/
def buildSubtree (comments : List Comment) (root : CommentId) (order : Order) :
    Logged (Except Fault Thread) := do
  let roster := Roster.ofList comments
  { events := roster.warnings, value := () : Logged Unit }
  match roster.find? root with
  | none => pure (.error (.noComment root))
  | some c => do
      let thread := subtreeOfRoster roster c order
      Logged.report (.builtSubtree root thread.count)
      pure (.ok thread)

end Thread

end Discussion
