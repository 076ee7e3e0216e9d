import Discussion.Comment.Basic

/-!
# Sibling orders

The three orders in which comments with the same parent are shown.  Each falls
back on the time of creation and then on the comment's number, so that it never
ties two comments with different numbers.
-/

namespace Discussion

/-- An order of siblings. -/
inductive Order
  /-- The highest score first. -/
  | top
  /-- The oldest first. -/
  | oldest
  /-- The newest first. -/
  | latest
deriving DecidableEq, Repr, Inhabited

namespace Order

/-- The name of an order. -/
def name : Order → String
  | .top => "top"
  | .oldest => "oldest"
  | .latest => "latest"

/-- Earlier creation first, then the lower number. -/
def compareAge (a b : Comment) : Ordering :=
  (a.createdAt.compare b.createdAt).then (a.id.compare b.id)

/-- How two siblings are ordered. -/
def compare : Order → Comment → Comment → Ordering
  | .top, a, b => (Ord.compare b.score.toInt a.score.toInt).then (compareAge a b)
  | .oldest, a, b => compareAge a b
  | .latest, a, b => compareAge b a

/-- Whether the first comment does not come after the second. -/
def le (order : Order) (a b : Comment) : Bool :=
  order.compare a b != .gt

/-- Siblings in their order. -/
def sort (order : Order) (siblings : List Comment) : List Comment :=
  siblings.mergeSort order.le

end Order

end Discussion
