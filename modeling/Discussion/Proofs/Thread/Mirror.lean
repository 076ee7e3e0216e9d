import Discussion.Proofs.Forest.Mirror
import Discussion.Proofs.Thread.Subtree

/-!
# The newest first and the oldest first

No two siblings tie, so the order that shows the newest first is the order that shows the
oldest first, read backwards.  Both orders give every comment the same replies.  So the two
threads of a list are mirror images of each other, as long as no root is cut off.
-/

namespace Discussion

namespace Thread

variable {roster : Roster} {comments : List Comment}

theorem ofRoster_latest_eq_mirror (h : roster.Knows comments) :
    ofRoster roster .latest = (ofRoster roster .oldest).mirror := by
  have hreplies : roster.sortedReplies .latest =
      fun c => (roster.sortedReplies .oldest c).reverse := by
    funext c
    exact Order.sort_latest_eq_reverse (h.nodup_ids_replies c.id)
  have hlatest := follows_ofRoster h .latest
  rw [hreplies] at hlatest
  apply Forest.eq_of_follows hlatest (follows_ofRoster h .oldest).mirror
  rw [Forest.map_label_roots_mirror, roots_ofRoster h, roots_ofRoster h,
    Order.sort_latest_eq_reverse (nodup_ids_founders comments)]

/-- Up to a limit that cuts off no root, each of the two threads is the mirror image of the
other, and both are refused only by a limit of zero. -/
theorem build_latest_mirrors_oldest
    (comments : List Comment) {limit : UInt64}
    (hroots : (founders comments).length ≤ limit.toNat) :
    (build comments limit .latest).value =
        (build comments limit .oldest).value.map Forest.mirror ∧
      (build comments limit .oldest).value =
        (build comments limit .latest).value.map Forest.mirror ∧
      (limit ≠ 0 → ∃ oldest latest, (build comments limit .oldest).value = .ok oldest ∧
        (build comments limit .latest).value = .ok latest ∧ latest = oldest.mirror) := by
  have hknows := Roster.knows_ofList comments
  by_cases hlimit : limit = 0
  · rw [hlimit, value_build_zero, value_build_zero]
    exact ⟨rfl, rfl, fun hpositive => absurd rfl hpositive⟩
  · have hwhole : ∀ order, (build comments limit order).value =
        .ok (ofRoster (Roster.ofList comments) order) := by
      intro order
      rw [value_build hlimit, Forest.take_eq_self]
      rw [rootCount_ofRoster hknows]
      exact hroots
    have hmirror := ofRoster_latest_eq_mirror hknows
    rw [hwhole, hwhole]
    refine ⟨congrArg Except.ok hmirror, congrArg Except.ok ?_,
      fun _ => ⟨_, _, rfl, rfl, hmirror⟩⟩
    rw [hmirror, Forest.mirror_mirror]

/-- The two roots, the one of them with its reply. -/
theorem build_latest_mirrors_oldest_besideCircle :
    (founders besideCircle).length ≤ (2 : UInt64).toNat ∧
      ∃ oldest latest, (build besideCircle 2 .oldest).value = .ok oldest ∧
        (build besideCircle 2 .latest).value = .ok latest ∧ latest = oldest.mirror := by
  have hroots : (founders besideCircle).length ≤ (2 : UInt64).toNat := by decide
  exact ⟨hroots, (build_latest_mirrors_oldest besideCircle hroots).2.2 (by decide)⟩

end Thread

end Discussion
