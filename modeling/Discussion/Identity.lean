import Discussion.Text.Numeral

/-!
# Identities

The numbers that name comments and users.  They are separate types, so that one
is never taken for the other.
-/

namespace Discussion

/-- The number that names a comment. -/
structure CommentId where
  value : UInt64
deriving DecidableEq, Hashable, Repr, Inhabited

/-- The number that names a user. -/
structure UserId where
  value : UInt64
deriving DecidableEq, Hashable, Repr, Inhabited

namespace CommentId

/-- A comment's number in decimal. -/
def text (id : CommentId) : String :=
  wordText id.value

/-- Comments are ordered by their numbers. -/
def compare (a b : CommentId) : Ordering :=
  Ord.compare a.value.toNat b.value.toNat

end CommentId

/-- A user's number in decimal. -/
def UserId.text (id : UserId) : String :=
  wordText id.value

end Discussion
