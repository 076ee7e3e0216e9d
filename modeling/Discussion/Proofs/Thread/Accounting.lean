import Mathlib.Algebra.Ring.Nat
import Discussion.Proofs.Thread.Backlog
import Discussion.Proofs.Thread.Rebuilding

/-!
# Accounting for every comment

What is built from a list and what is reported on the way account for every comment.  A
comment came too late, or it hangs in a circle or below one, or it stands below a root, which
may be cut off.  The comments that are left out of the thread are those that still wait in
their bundles when all roots have been placed.
-/

namespace Discussion

namespace Event

/-- Whether an event is about a comment that came too late. -/
def isDuplicate : Event → Bool
  | duplicateComment _ => true
  | _ => false

/-- Whether an event is about a parent that does not count. -/
def isOutsideParent : Event → Bool
  | outsideParent _ _ => true
  | _ => false

/-- The number of comments of which an event says that they were left out. -/
def leftOut? : Event → Option Nat
  | unreachable count => some count
  | _ => none

end Event

/-- The number of nodes of a tree, its root included. -/
def Tree.count {α : Type} (tree : Tree α) : Nat :=
  1 + tree.children.count

/-- Whether the trees of a whole thread and the events on the way to it account for every
comment of a list.  Roots that a limit cuts off are counted with the others. -/
structure Thread.AccountsFor (comments : List Comment) (order : Order) (whole : Thread)
    (events : List Event) : Prop where
  length_eq : comments.length = events.countP Event.isDuplicate +
    (events.filterMap Event.leftOut?).sum + (whole.roots.map Tree.count).sum
  told_once : (events.filterMap Event.leftOut?).length ≤ 1
  outsideParents : events.countP Event.isOutsideParent =
    whole.roots.countP fun tree => tree.label.parent.isSome
  leftOut_iff : (∃ count, .unreachable count ∈ events) ↔
    ∃ c ∈ firsts comments, ¬IsAnchored comments c
  /-- What waits in the bundles in the end, in whatever order they come. -/
  waiting_eq : ∀ bundles, bundles.Perm (Roster.ofList comments).replies.toList →
    ∃ left, Bundle.placeAll order bundles (order.sort (Roster.ofList comments).roots) =
      (whole, left) ∧ Bundle.waiting left = (events.filterMap Event.leftOut?).sum

namespace Forest

theorem count_eq_sum {α : Type} (forest : Forest α) :
    forest.count = (forest.roots.map Tree.count).sum := by
  rw [count, subtrees_eq, List.length_flatMap]
  congr 1
  refine List.map_congr_left fun tree _ => ?_
  rw [List.length_cons, Tree.count, count, Nat.add_comm]

end Forest

/-! ## Warnings -/

namespace Roster

theorem countP_isDuplicate_warnings (roster : Roster) :
    roster.warnings.countP Event.isDuplicate = roster.repeated.size := by
  have hparents : (roster.members.toList.filterMap roster.parentWarning).countP
      Event.isDuplicate = 0 := by
    rw [List.countP_eq_zero]
    intro event hevent
    obtain ⟨c, -, hwarning⟩ := List.mem_filterMap.mp hevent
    unfold parentWarning at hwarning
    grind [Event.isDuplicate]
  rw [warnings, List.countP_append, hparents, List.countP_map]
  simp [Function.comp_def, Event.isDuplicate]

theorem leftOut?_warnings (roster : Roster) : roster.warnings.filterMap Event.leftOut? = [] := by
  rw [List.filterMap_eq_nil_iff]
  intro event hevent
  rcases List.mem_append.mp hevent with hduplicate | hparent
  · obtain ⟨id, -, rfl⟩ := List.mem_map.mp hduplicate
    rfl
  · obtain ⟨c, -, hwarning⟩ := List.mem_filterMap.mp hparent
    unfold parentWarning at hwarning
    grind [Event.leftOut?]

theorem Knows.countP_isOutsideParent_warnings
    {roster : Roster} {comments : List Comment} (h : roster.Knows comments) :
    roster.warnings.countP Event.isOutsideParent =
      (founders comments).countP fun c => c.parent.isSome := by
  have hduplicates : (roster.repeated.toList.map Event.duplicateComment).countP
      Event.isOutsideParent = 0 := by
    simp [Event.isOutsideParent]
  rw [warnings, List.countP_append, hduplicates, Nat.zero_add, List.countP_filterMap,
    h.members_eq, founders, List.countP_filter]
  refine List.countP_congr fun c _ => ?_
  rw [parentWarning, h.parent?_eq]
  cases c.parent <;> cases resolvedParent? comments c <;> simp [Event.isOutsideParent]

end Roster

/-! ## Comments that are left out -/

namespace Thread

variable {roster : Roster} {comments : List Comment}

/-- The first comments of a list that are not in a thread. -/
def lost (comments : List Comment) (thread : Thread) : List Comment :=
  (firsts comments).filter fun c => c ∉ thread.labels

theorem length_firsts_eq (h : roster.Knows comments) (order : Order) :
    (firsts comments).length =
      (ofRoster roster order).count + (lost comments (ofRoster roster order)).length := by
  have hkept : ((firsts comments).filter fun c => c ∈ (ofRoster roster order).labels).Perm
      (ofRoster roster order).labels := by
    rw [List.perm_ext_iff_of_nodup ((nodup_firsts comments).filter _)
      (holdsWhole_ofRoster h order).ids_nodup.of_map]
    intro c
    rw [List.mem_filter, decide_eq_true_iff]
    exact ⟨And.right, fun hc => ⟨((mem_labels_ofRoster_iff h).mp hc).1, hc⟩⟩
  have hcount : (ofRoster roster order).count = (ofRoster roster order).labels.length := by
    rw [Forest.count, Forest.labels, List.length_map]
  rw [hcount, ← hkept.length_eq, lost, List.length_eq_length_filter_add
    (fun c => c ∈ (ofRoster roster order).labels)]
  simp

theorem mem_lost_iff (h : roster.Knows comments) (order : Order) {c : Comment} :
    c ∈ lost comments (ofRoster roster order) ↔ c ∈ firsts comments ∧ ¬IsAnchored comments c := by
  rw [lost, List.mem_filter, decide_eq_true_iff, mem_labels_ofRoster_iff h]
  refine and_congr_right fun hc => not_congr ?_
  exact ⟨And.right, fun hanchored => ⟨hc, hanchored⟩⟩

/-- A comment is left out together with its parent. -/
theorem mem_lost_iff_parent
    (h : roster.Knows comments) (order : Order) {c parent : Comment} (hc : c ∈ firsts comments)
    (hparent : resolvedParent? comments c = some parent) :
    c ∈ lost comments (ofRoster roster order) ↔
      parent.id ∉ (ofRoster roster order).labels.map (·.id) := by
  have hclosed := isClosedPart_labels h order
  rw [lost, List.mem_filter, decide_eq_true_iff]
  constructor
  · rintro ⟨-, hlost⟩ hmem
    obtain ⟨other, hother, hid⟩ := List.mem_map.mp hmem
    have heq := eq_of_mem_firsts (hclosed.mem_firsts other hother)
      (mem_firsts_of_resolvedParent? hparent) hid
    exact hlost (hclosed.reply_mem parent (heq ▸ hother) c hc hparent)
  · intro hmem
    refine ⟨hc, fun hlabel => hmem ?_⟩
    exact List.mem_map.mpr ⟨parent, hclosed.parent_mem c hlabel parent hparent, rfl⟩

/-- What waits when all roots have been placed is what is left out. -/
theorem waiting_discard_labels
    (h : roster.Knows comments) (order : Order) {bundles : List Bundle}
    (hbundles : bundles.Perm roster.replies.toList) :
    Bundle.waiting (Bundle.discard bundles ((ofRoster roster order).labels.map (·.id))) =
      (lost comments (ofRoster roster order)).length := by
  apply List.Perm.length_eq
  rw [List.perm_ext_iff_of_nodup]
  · intro c
    rw [List.mem_flatMap]
    constructor
    · rintro ⟨bundle, hbundle, hc⟩
      obtain ⟨hmem, hkey⟩ := List.mem_filter.mp hbundle
      obtain ⟨hfirst, hparent⟩ := Roster.member_of_mem_bundle hbundles hmem hc
      rw [h.members_eq] at hfirst
      rw [h.parent?_eq, Option.map_eq_some_iff] at hparent
      obtain ⟨parent, hresolved, hid⟩ := hparent
      rw [mem_lost_iff_parent h order hfirst hresolved, hid]
      simpa using hkey
    · intro hlost
      obtain ⟨hfirst, hloose⟩ := (mem_lost_iff h order).mp hlost
      obtain ⟨parent, hresolved⟩ : ∃ parent, resolvedParent? comments c = some parent := by
        rw [← Option.ne_none_iff_exists']
        exact fun hnone => hloose ⟨c, .refl, hnone⟩
      obtain ⟨bundle, hmem, hc⟩ :=
        List.mem_flatMap.mp ((h.mem_bundled_iff hbundles).mpr ⟨hfirst, parent, hresolved⟩)
      have hkey := (Roster.member_of_mem_bundle hbundles hmem hc).2
      rw [h.parent?_eq, hresolved] at hkey
      have hid : parent.id = bundle.1 := Option.some.inj hkey
      rw [mem_lost_iff_parent h order hfirst hresolved, hid] at hlost
      refine ⟨bundle, List.mem_filter.mpr ⟨hmem, ?_⟩, hc⟩
      simpa using hlost
  · exact (h.nodup_ids_bundled hbundles).of_map.sublist (List.filter_sublist.flatMap _)
  · exact (nodup_firsts comments).filter _

/-! ## Building -/

/-- What is reported: who came too late, which parents do not count, how many comments are left
out, and last what was built. -/
theorem events_build
    {limit : UInt64} (hlimit : limit ≠ 0) (comments : List Comment) (order : Order) :
    let whole := ofRoster (Roster.ofList comments) order
    let thread := whole.take limit.toNat
    (build comments limit order).events =
      (Roster.ofList comments).warnings ++
        ((unreachableWarning (Roster.ofList comments) whole).events ++
          [.builtThread thread.rootCount whole.rootCount thread.count comments.length order]) := by
  simp [build, hlimit, Logged.report]

/-- The comments that are left out are told once, unless there are none. -/
theorem leftOut?_build
    {limit : UInt64} (hlimit : limit ≠ 0) (comments : List Comment) (order : Order) :
    (build comments limit order).events.filterMap Event.leftOut? =
      [(lost comments (ofRoster (Roster.ofList comments) order)).length].filter (0 < ·) := by
  have hknows := Roster.knows_ofList comments
  have hlost : (Roster.ofList comments).members.size -
      (ofRoster (Roster.ofList comments) order).count =
        (lost comments (ofRoster (Roster.ofList comments) order)).length := by
    rw [← Array.length_toList, hknows.members_eq, length_firsts_eq hknows order]
    omega
  rw [events_build hlimit, List.filterMap_append, List.filterMap_append,
    Roster.leftOut?_warnings, unreachableWarning, hlost]
  split
  next hpositive => simp [Logged.report, Event.leftOut?, hpositive]
  next hnone => simp [Event.leftOut?, Nat.eq_zero_of_not_pos hnone]

theorem sum_leftOut?_build
    {limit : UInt64} (hlimit : limit ≠ 0) (comments : List Comment) (order : Order) :
    ((build comments limit order).events.filterMap Event.leftOut?).sum =
      (lost comments (ofRoster (Roster.ofList comments) order)).length := by
  rw [leftOut?_build hlimit]
  cases (lost comments (ofRoster (Roster.ofList comments) order)).length <;> simp

/-- Comments are warned about one by one only before the thread is grown. -/
theorem countP_build
    {limit : UInt64} (hlimit : limit ≠ 0) (comments : List Comment) (order : Order)
    {p : Event → Bool} (hunreachable : ∀ count, p (.unreachable count) = false)
    (hbuilt : ∀ shownRoots roots shown total, p (.builtThread shownRoots roots shown total order) =
      false) :
    (build comments limit order).events.countP p = (Roster.ofList comments).warnings.countP p := by
  have hlater : (unreachableWarning (Roster.ofList comments)
      (ofRoster (Roster.ofList comments) order)).events.countP p = 0 := by
    rw [unreachableWarning]
    split <;> simp [Logged.report, hunreachable]
  rw [events_build hlimit, List.countP_append, List.countP_append, hlater,
    List.countP_singleton, hbuilt]
  rfl

theorem exists_unreachable_iff
    {limit : UInt64} (hlimit : limit ≠ 0) (comments : List Comment) (order : Order) :
    (∃ count, .unreachable count ∈ (build comments limit order).events) ↔
      ∃ c ∈ firsts comments, ¬IsAnchored comments c := by
  have hknows := Roster.knows_ofList comments
  have hreported : (∃ count, .unreachable count ∈ (build comments limit order).events) ↔
      0 < ((build comments limit order).events.filterMap Event.leftOut?).length := by
    rw [List.length_pos_iff_exists_mem]
    refine exists_congr fun count => ?_
    rw [List.mem_filterMap]
    constructor
    · intro hevent
      exact ⟨_, hevent, rfl⟩
    · rintro ⟨event, hevent, hcount⟩
      cases event <;> cases hcount
      exact hevent
  have hsome : (∃ c ∈ firsts comments, ¬IsAnchored comments c) ↔
      0 < (lost comments (ofRoster (Roster.ofList comments) order)).length := by
    rw [List.length_pos_iff_exists_mem]
    exact exists_congr fun c => (mem_lost_iff hknows order).symm
  rw [hreported, hsome, leftOut?_build hlimit]
  cases (lost comments (ofRoster (Roster.ofList comments) order)).length <;> simp

/-- Every limit that is not refused, and every order, accounts for all comments of a list. -/
theorem build_accountsFor
    (comments : List Comment) (order : Order) {limit : UInt64} (hlimit : limit ≠ 0) :
    ∃ whole, HoldsWhole comments whole ∧
      (build comments limit order).value = .ok (whole.take limit.toNat) ∧
      AccountsFor comments order whole (build comments limit order).events := by
  have hknows := Roster.knows_ofList comments
  have hsum := sum_leftOut?_build hlimit comments order
  refine ⟨ofRoster (Roster.ofList comments) order, holdsWhole_ofRoster hknows order,
    value_build hlimit comments order, ?_⟩
  refine {
    length_eq := ?_
    told_once := ?_
    outsideParents := ?_
    leftOut_iff := exists_unreachable_iff hlimit comments order
    waiting_eq := ?_ }
  · have hsize := Roster.size_ofList comments
    rw [← Array.length_toList, hknows.members_eq, length_firsts_eq hknows order] at hsize
    rw [countP_build hlimit comments order (fun _ => rfl) fun _ _ _ _ => rfl,
      Roster.countP_isDuplicate_warnings, hsum, ← Forest.count_eq_sum]
    omega
  · rw [leftOut?_build hlimit]
    exact List.length_filter_le _ _
  · have hroots : ((ofRoster (Roster.ofList comments) order).roots.map (·.label)).Perm
        (founders comments) := by
      rw [roots_ofRoster hknows]
      exact order.sort_perm _
    rw [countP_build hlimit comments order (fun _ => rfl) fun _ _ _ _ => rfl,
      hknows.countP_isOutsideParent_warnings, ← hroots.countP_eq, List.countP_map]
    rfl
  · intro bundles hbundles
    refine ⟨_, hknows.placeAll_roots hbundles order, ?_⟩
    rw [waiting_discard_labels hknows order hbundles, hsum]

theorem build_accountsFor_besideCircle :
    (1 : UInt64) ≠ 0 ∧ ∃ whole, HoldsWhole besideCircle whole ∧
      (build besideCircle 1 .top).value = .ok (whole.take 1) ∧
      AccountsFor besideCircle .top whole (build besideCircle 1 .top).events :=
  ⟨by decide, build_accountsFor besideCircle .top (by decide)⟩

end Thread

end Discussion
