import Discussion.Proofs.Order.Laws

/-!
# Which comment comes first

An order compares scores, instants and numbers one after the other, each of them in one of two
directions.  Here the outcome is described without comparing: which of two comments is the older
one, which one an order puts first, and when an order has nothing left to tell them apart.  The
laws that sorting relies on hold for every score, every number and every instant, those within a
leap second included.
-/

namespace Discussion

/-- Whether an instant lies before another one.  A leap second lies after all of the second that
it is kept with and before the next second. -/
def Instant.IsBefore (a b : Instant) : Prop :=
  a.second < b.second ∨ a.second = b.second ∧ a.nano < b.nano

/-- Whether a comment was made before another one, or at the same instant with a lower number. -/
def Comment.IsOlder (a b : Comment) : Prop :=
  a.createdAt.IsBefore b.createdAt ∨ a.createdAt = b.createdAt ∧ a.id.value < b.id.value

namespace Order

/-- Whether an order puts a comment before another one. -/
def Precedes : Order → Comment → Comment → Prop
  | .top, a, b => b.score < a.score ∨ a.score = b.score ∧ a.IsOlder b
  | .oldest, a, b => a.IsOlder b
  | .latest, a, b => b.IsOlder a

/-- Whether an order decides consistently between any two comments, and ties those alone that it
has nothing to tell apart by. -/
structure IsLawful (order : Order) : Prop where
  swap : ∀ a b, order.compare b a = (order.compare a b).swap
  trans : ∀ a b c, order.compare a b ≠ .gt → order.compare b c ≠ .gt → order.compare a c ≠ .gt
  lt_iff : ∀ a b, order.compare a b = .lt ↔ order.Precedes a b
  eq_iff : ∀ a b, order.compare a b = .eq ↔
    a.id = b.id ∧ a.createdAt = b.createdAt ∧ (order = .top → a.score = b.score)
  ne_eq : ∀ a b, a.id ≠ b.id → order.compare a b ≠ .eq

end Order

/-! ## Instants, numbers and scores -/

namespace Instant

theorem compare_eq_lt_iff {a b : Instant} : a.compare b = .lt ↔ a.IsBefore b := by
  rw [compare, Ordering.then_eq_lt, Int.compare_eq_lt, Int.compare_eq_eq, Nat.compare_eq_lt,
    IsBefore]

/-- The middle of a leap second lies before the second that follows it. -/
example : (⟨1483228799, 1500000000⟩ : Instant).compare ⟨1483228800, 0⟩ = .lt := by decide

theorem compare_eq_eq_iff {a b : Instant} : a.compare b = .eq ↔ a = b := by
  rw [compare, Ordering.then_eq_eq, Int.compare_eq_eq, Nat.compare_eq_eq, Instant.mk.injEq]

end Instant

namespace CommentId

theorem compare_eq_lt_iff {a b : CommentId} : a.compare b = .lt ↔ a.value < b.value := by
  rw [compare, Nat.compare_eq_lt, UInt64.lt_iff_toNat_lt]

theorem compare_eq_eq_iff {a b : CommentId} : a.compare b = .eq ↔ a = b := by
  rw [compare, Nat.compare_eq_eq, UInt64.toNat_inj, CommentId.mk.injEq]

end CommentId

/-! ## Comments -/

namespace Order

variable {order : Order} {a b c : Comment}

theorem compareAge_eq_lt_iff : compareAge a b = .lt ↔ a.IsOlder b := by
  rw [compareAge, Ordering.then_eq_lt, Instant.compare_eq_lt_iff, Instant.compare_eq_eq_iff,
    CommentId.compare_eq_lt_iff, Comment.IsOlder]

theorem compareAge_eq_eq_iff : compareAge a b = .eq ↔ a.id = b.id ∧ a.createdAt = b.createdAt := by
  rw [compareAge, Ordering.then_eq_eq, Instant.compare_eq_eq_iff, CommentId.compare_eq_eq_iff,
    and_comm]

theorem compare_eq_lt_iff : order.compare a b = .lt ↔ order.Precedes a b := by
  cases order with
  | top =>
      rw [compare, Ordering.then_eq_lt, Int.compare_eq_lt, Int.compare_eq_eq,
        compareAge_eq_lt_iff, ← Int64.lt_iff_toInt_lt, Int64.toInt_inj, Precedes, eq_comm]
  | oldest => exact compareAge_eq_lt_iff
  | latest => exact compareAge_eq_lt_iff

theorem compare_eq_eq_iff :
    order.compare a b = .eq ↔
      a.id = b.id ∧ a.createdAt = b.createdAt ∧ (order = .top → a.score = b.score) := by
  cases order with
  | top =>
      rw [compare, Ordering.then_eq_eq, Int.compare_eq_eq, Int64.toInt_inj, compareAge_eq_eq_iff,
        eq_comm, and_comm, and_assoc]
      simp
  | oldest =>
      rw [compare, compareAge_eq_eq_iff]
      simp
  | latest =>
      rw [compare, compareAge_eq_eq_iff, eq_comm, @eq_comm _ b.createdAt]
      simp

theorem compare_swap (order : Order) (a b : Comment) :
    order.compare b a = (order.compare a b).swap :=
  Std.OrientedCmp.eq_swap

theorem compare_ne_gt_trans
    (hab : order.compare a b ≠ .gt) (hbc : order.compare b c ≠ .gt) :
    order.compare a c ≠ .gt := by
  have hle : order.le a c = true :=
    le_trans (bne_iff_ne.mpr hab) (bne_iff_ne.mpr hbc)
  exact bne_iff_ne.mp hle

theorem isLawful (order : Order) : order.IsLawful where
  swap := order.compare_swap
  trans _ _ _ := compare_ne_gt_trans
  lt_iff _ _ := compare_eq_lt_iff
  eq_iff _ _ := compare_eq_eq_iff
  ne_eq _ _ hid heq := hid (id_eq_of_compare heq)

/-- Every order is lawful, and the newest first is the oldest first with its sides exchanged. -/
theorem compare_isLawful :
    (∀ order : Order, order.IsLawful) ∧ ∀ a b, latest.compare a b = oldest.compare b a :=
  ⟨isLawful, fun _ _ => rfl⟩

end Order

end Discussion
