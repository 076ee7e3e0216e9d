import Mathlib.Data.List.Nodup
import Discussion.Order

/-!
# Laws of the sibling orders

Every sibling order is a total preorder in which comments with different numbers never
tie.  So siblings with different numbers have exactly one sorted arrangement, which is
strictly increasing and does not depend on the order in which they came.
-/

namespace Discussion

namespace Order

/-! ## Comparing -/

instance : Std.TransCmp compareAge :=
  inferInstanceAs (Std.TransCmp
    (compareLex
      (compareLex (compareOn fun c : Comment => c.createdAt.second)
        (compareOn fun c => c.createdAt.nano))
      (compareOn fun c => c.id.value.toNat)))

instance (order : Order) : Std.TransCmp order.compare :=
  match order with
  | .top =>
      inferInstanceAs (Std.TransCmp
        (compareLex (fun a b => compareOn (fun c : Comment => c.score.toInt) b a) compareAge))
  | .oldest => inferInstanceAs (Std.TransCmp compareAge)
  | .latest => inferInstanceAs (Std.TransCmp fun a b => compareAge b a)

theorem id_eq_of_compareAge {a b : Comment} (h : compareAge a b = .eq) : a.id = b.id := by
  obtain ⟨_, hid⟩ := Ordering.then_eq_eq.mp h
  have hvalue : a.id.value.toNat = b.id.value.toNat := Nat.compare_eq_eq.mp hid
  exact congrArg CommentId.mk (UInt64.toNat_inj.mp hvalue)

/-- No order ties two comments with different numbers. -/
theorem id_eq_of_compare {order : Order} {a b : Comment} (h : order.compare a b = .eq) :
    a.id = b.id := by
  cases order with
  | top => exact id_eq_of_compareAge (Ordering.then_eq_eq.mp h).2
  | oldest => exact id_eq_of_compareAge h
  | latest => exact (id_eq_of_compareAge h).symm

theorem le_iff {order : Order} {a b : Comment} :
    order.le a b = true ↔ (order.compare a b).isLE = true := by
  unfold le
  cases order.compare a b <;> decide

theorem le_trans
    {order : Order} {a b c : Comment} (hab : order.le a b = true) (hbc : order.le b c = true) :
    order.le a c = true := by
  rw [le_iff] at hab hbc ⊢
  exact Std.TransCmp.isLE_trans hab hbc

theorem le_total (order : Order) (a b : Comment) : (order.le a b || order.le b a) = true := by
  have hswap : order.compare b a = (order.compare a b).swap := Std.OrientedCmp.eq_swap
  unfold le
  rw [hswap]
  cases order.compare a b <;> rfl

theorem id_eq_of_le_of_le
    {order : Order} {a b : Comment} (hab : order.le a b = true) (hba : order.le b a = true) :
    a.id = b.id := by
  rw [le_iff] at hab hba
  exact id_eq_of_compare (Std.OrientedCmp.isLE_antisymm hab hba)

theorem compare_eq_lt_of_le
    {order : Order} {a b : Comment} (hle : order.le a b = true) (hid : a.id ≠ b.id) :
    order.compare a b = .lt := by
  rw [le_iff] at hle
  cases hcompare : order.compare a b with
  | lt => rfl
  | eq => exact absurd (id_eq_of_compare hcompare) hid
  | gt =>
      rw [hcompare] at hle
      cases hle

theorem le_of_compare_eq_lt {order : Order} {a b : Comment} (h : order.compare a b = .lt) :
    order.le a b = true := by
  rw [le_iff, h]
  rfl

theorem ne_of_compare_eq_lt {order : Order} {a b : Comment} (h : order.compare a b = .lt) :
    a ≠ b := by
  rintro rfl
  have hself : order.compare a a = .eq := Std.ReflCmp.compare_self
  rw [hself] at h
  cases h

/-! ## Sorting -/

theorem sort_perm (order : Order) (siblings : List Comment) :
    (order.sort siblings).Perm siblings :=
  List.mergeSort_perm siblings order.le

@[simp]
theorem mem_sort {order : Order} {siblings : List Comment} {c : Comment} :
    c ∈ order.sort siblings ↔ c ∈ siblings :=
  (order.sort_perm siblings).mem_iff

theorem nodup_sort {order : Order} {siblings : List Comment} :
    (order.sort siblings).Nodup ↔ siblings.Nodup :=
  (order.sort_perm siblings).nodup_iff

theorem length_sort (order : Order) (siblings : List Comment) :
    (order.sort siblings).length = siblings.length :=
  (order.sort_perm siblings).length_eq

theorem pairwise_le_sort (order : Order) (siblings : List Comment) :
    (order.sort siblings).Pairwise fun a b => order.le a b = true := by
  apply List.pairwise_mergeSort
  · intro a b c
    exact le_trans
  · exact order.le_total

/-- Sorted siblings with different numbers are strictly increasing. -/
theorem pairwise_lt_sort
    {order : Order} {siblings : List Comment} (hids : (siblings.map (·.id)).Nodup) :
    (order.sort siblings).Pairwise fun a b => order.compare a b = .lt := by
  have hids' : ((order.sort siblings).map (·.id)).Nodup :=
    ((order.sort_perm siblings).map (·.id)).nodup_iff.mpr hids
  have hne : (order.sort siblings).Pairwise fun a b => a.id ≠ b.id := List.pairwise_map.mp hids'
  refine ((order.pairwise_le_sort siblings).and hne).imp ?_
  rintro a b ⟨hle, hid⟩
  exact compare_eq_lt_of_le hle hid

/-- Siblings with different numbers have one sorted arrangement. -/
theorem eq_sort_of_pairwise
    {order : Order} {sorted siblings : List Comment} (hperm : sorted.Perm siblings)
    (hids : (siblings.map (·.id)).Nodup)
    (hsorted : sorted.Pairwise fun a b => order.le a b = true) :
    sorted = order.sort siblings := by
  refine List.Perm.eq_of_pairwise ?_ hsorted (order.pairwise_le_sort siblings)
    (hperm.trans (order.sort_perm siblings).symm)
  intro a b ha hb hab hba
  have ha' : a ∈ siblings := hperm.mem_iff.mp ha
  have hb' : b ∈ siblings := mem_sort.mp hb
  exact List.inj_on_of_nodup_map hids ha' hb' (id_eq_of_le_of_le hab hba)

/-- Sorting forgets in which order siblings with different numbers came. -/
theorem sort_eq_of_perm
    {order : Order} {siblings others : List Comment} (hperm : siblings.Perm others)
    (hids : (siblings.map (·.id)).Nodup) :
    order.sort siblings = order.sort others :=
  eq_sort_of_pairwise ((order.sort_perm siblings).trans hperm)
    ((hperm.map _).nodup_iff.mp hids) (order.pairwise_le_sort siblings)

/-- The newest siblings first are the oldest first, read backwards. -/
theorem sort_latest_eq_reverse {siblings : List Comment} (hids : (siblings.map (·.id)).Nodup) :
    latest.sort siblings = (oldest.sort siblings).reverse := by
  refine (eq_sort_of_pairwise ((List.reverse_perm _).trans (sort_perm ..)) hids ?_).symm
  rw [List.pairwise_reverse]
  exact oldest.pairwise_le_sort siblings

end Order

end Discussion
