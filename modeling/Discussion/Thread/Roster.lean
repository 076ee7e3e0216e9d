import Std.Data.HashMap
import Discussion.Event.Logged

/-!
# Rosters

A source may repeat a comment's number, and may give a comment a parent that is
missing, the comment itself, or a comment of another commentable.  A roster
keeps the first comment of each number and settles each one's parent: a parent
that is not another comment of the same commentable does not count.
-/

namespace Discussion

/-- The first comment of each number. -/
structure Roster where
  /-- The comments by their numbers. -/
  known : Std.HashMap CommentId Comment
  /-- The comments in the order in which they came. -/
  members : Array Comment
  /-- The numbers of the comments that came too late, in their order. -/
  repeated : Array CommentId

namespace Roster

/-- The roster without comments. -/
def empty : Roster :=
  { known := ∅, members := #[], repeated := #[] }

/-- Adds a comment, unless its number is known. -/
def add (roster : Roster) (c : Comment) : Roster :=
  if roster.known.contains c.id then
    { roster with repeated := roster.repeated.push c.id }
  else
    { roster with known := roster.known.insert c.id c, members := roster.members.push c }

/-- The roster of a list of comments. -/
def ofList (comments : List Comment) : Roster :=
  comments.foldl add empty

/-- The member with a number. -/
def find? (roster : Roster) (id : CommentId) : Option Comment :=
  roster.known[id]?

/-- Whether a comment may count as the parent of another. -/
def isParentOf (parent c : Comment) : Bool :=
  parent.id != c.id && parent.commentable == c.commentable

/-- The number of a comment's parent, if it counts. -/
def parent? (roster : Roster) (c : Comment) : Option CommentId :=
  match c.parent with
  | none => none
  | some id =>
      match roster.find? id with
      | some parent => if isParentOf parent c then some id else none
      | none => none

/-- The members without a parent that counts. -/
def roots (roster : Roster) : List Comment :=
  roster.members.toList.filter fun c => (roster.parent? c).isNone

/-- The members under their parents' numbers, in the order in which they came. -/
def replies (roster : Roster) : Std.HashMap CommentId (List Comment) :=
  roster.members.toList.foldr
    (fun c map =>
      match roster.parent? c with
      | some id => map.insert id (c :: map.getD id [])
      | none => map)
    ∅

/-- The warning about a comment whose parent does not count. -/
def parentWarning (roster : Roster) (c : Comment) : Option Event :=
  match c.parent with
  | some id => if (roster.parent? c).isNone then some (.outsideParent c.id id) else none
  | none => none

/-- The warnings about repeated numbers, then those about parents. -/
def warnings (roster : Roster) : List Event :=
  roster.repeated.toList.map .duplicateComment ++
    roster.members.toList.filterMap roster.parentWarning

end Roster

end Discussion
