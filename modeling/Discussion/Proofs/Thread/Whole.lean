import Discussion.Proofs.Forest.Following
import Discussion.Proofs.Thread.Outcome

/-!
# What the thread of a list holds

The first comments of a list, with the parents that count, are a family: the sorted
replies of a comment are its children, and the sorted roots of the roster are the
founders.  A thread whose limit cuts off no root is the forest of that family.  It
holds the first comments whose line of parents ends, each once, with every comment
below its parent.  Comments whose parents lead round in a circle are in no thread.
-/

namespace Discussion

/-- Whether the line of parents of a comment ends at a founder. -/
def IsAnchored (comments : List Comment) (c : Comment) : Prop :=
  ∃ founder, DescendsFrom (resolvedParent? comments) c founder ∧
    resolvedParent? comments founder = none

/-- Whether a thread holds what can be reached from the founders of a list, every
comment once, at its place and unchanged. -/
structure HoldsWhole (comments : List Comment) (thread : Thread) : Prop where
  ids_nodup : (thread.labels.map (·.id)).Nodup
  mem_labels : ∀ c, c ∈ thread.labels ↔ c ∈ firsts comments ∧ IsAnchored comments c
  mem_roots : ∀ c, c ∈ thread.roots.map (·.label) ↔
    c ∈ firsts comments ∧ resolvedParent? comments c = none
  mem_children : ∀ address tree, thread.treeAt? address = some tree →
    ∀ c, c ∈ tree.children.roots.map (·.label) ↔
      c ∈ firsts comments ∧ resolvedParent? comments c = some tree.label

theorem nodup_firsts (comments : List Comment) : (firsts comments).Nodup :=
  (nodup_ids_firsts comments).of_map

theorem nodup_ids_of_subset_firsts
    {comments list : List Comment} (hlist : list.Nodup)
    (hsub : ∀ c ∈ list, c ∈ firsts comments) :
    (list.map (·.id)).Nodup := by
  refine List.Nodup.map_on ?_ hlist
  intro a ha b hb hid
  exact eq_of_mem_firsts (hsub a ha) (hsub b hb) hid

theorem mem_founders_iff {comments : List Comment} {c : Comment} :
    c ∈ founders comments ↔ c ∈ firsts comments ∧ resolvedParent? comments c = none := by
  simp [founders]

theorem nodup_ids_founders (comments : List Comment) :
    ((founders comments).map (·.id)).Nodup :=
  (nodup_ids_firsts comments).sublist (List.filter_sublist.map _)

theorem mem_firsts_of_descendsFrom
    {comments : List Comment} {c ancestor : Comment} (hc : c ∈ firsts comments)
    (h : DescendsFrom (resolvedParent? comments) c ancestor) :
    ancestor ∈ firsts comments := by
  rcases Relation.ReflTransGen.cases_tail h with rfl | ⟨child, _, hchild⟩
  · exact hc
  · exact mem_firsts_of_resolvedParent? hchild

/-- The sorted replies to a comment. -/
def Roster.sortedReplies (roster : Roster) (order : Order) (c : Comment) : List Comment :=
  order.sort (roster.replies.getD c.id [])

theorem Roster.Knows.isFamily
    {roster : Roster} {comments : List Comment} (h : roster.Knows comments) (order : Order) :
    IsFamily (resolvedParent? comments) (firsts comments)
      (roster.sortedReplies order) (order.sort roster.roots) := by
  constructor
  · intro a _ b hab
    exact mem_firsts_of_resolvedParent? hab
  · intro a _
    rw [Roster.sortedReplies, Order.nodup_sort, Roster.getD_replies, h.members_eq]
    exact (nodup_firsts comments).filter _
  · intro a ha c
    rw [Roster.sortedReplies, Order.mem_sort]
    exact h.mem_replies_iff ha
  · rw [Order.nodup_sort, h.roots_eq]
    exact (nodup_firsts comments).filter _
  · intro a ha
    rw [Order.mem_sort, h.roots_eq, mem_founders_iff] at ha
    exact ha

namespace Thread

theorem ofRoster_eq
    {roster : Roster} {comments : List Comment} (h : roster.Knows comments) (order : Order) :
    ofRoster roster order =
      Forest.grow (roster.sortedReplies order) (firsts comments).length
        (order.sort roster.roots) := by
  rw [ofRoster, Forest.growLevels_eq, ← h.members_eq, Array.length_toList]
  rfl

theorem follows_ofRoster
    {roster : Roster} {comments : List Comment} (h : roster.Knows comments) (order : Order) :
    (ofRoster roster order).Follows (roster.sortedReplies order) := by
  rw [ofRoster_eq h]
  exact (h.isFamily order).follows_grow

theorem roots_ofRoster
    {roster : Roster} {comments : List Comment} (h : roster.Knows comments) (order : Order) :
    (ofRoster roster order).roots.map (·.label) = order.sort (founders comments) := by
  rw [ofRoster_eq h, h.roots_eq]
  cases hcount : (firsts comments).length with
  | zero =>
      have hnone : firsts comments = [] := List.eq_nil_of_length_eq_zero hcount
      simp [founders, hnone, Forest.grow, Forest.roots, Order.sort]
  | succ depth => exact Forest.roots_grow_succ _ _ _

theorem rootCount_ofRoster
    {roster : Roster} {comments : List Comment} (h : roster.Knows comments) (order : Order) :
    (ofRoster roster order).rootCount = (founders comments).length := by
  have hroots := congrArg List.length (roots_ofRoster h order)
  rw [List.length_map, Order.sort, List.length_mergeSort] at hroots
  rw [Forest.rootCount, Forest.trees_eq, hroots]

theorem mem_labels_ofRoster_iff
    {roster : Roster} {comments : List Comment} (h : roster.Knows comments) {order : Order}
    {c : Comment} :
    c ∈ (ofRoster roster order).labels ↔ c ∈ firsts comments ∧ IsAnchored comments c := by
  have hfamily := h.isFamily order
  rw [ofRoster_eq h, hfamily.mem_labels_grow_iff]
  constructor
  · rintro ⟨hc, founder, hfounder, hline⟩
    exact ⟨hc, founder, hline, (hfamily.seeds_founders founder hfounder).2⟩
  · rintro ⟨hc, founder, hline, hnone⟩
    refine ⟨hc, founder, ?_, hline⟩
    rw [Order.mem_sort, h.roots_eq, mem_founders_iff]
    exact ⟨mem_firsts_of_descendsFrom hc hline, hnone⟩

theorem holdsWhole_ofRoster
    {roster : Roster} {comments : List Comment} (h : roster.Knows comments) (order : Order) :
    HoldsWhole comments (ofRoster roster order) := by
  have hfamily := h.isFamily order
  constructor
  · apply nodup_ids_of_subset_firsts
    · rw [ofRoster_eq h]
      exact hfamily.nodup_labels _
    · intro c hc
      exact ((mem_labels_ofRoster_iff h).mp hc).1
  · intro c
    exact mem_labels_ofRoster_iff h
  · intro c
    rw [roots_ofRoster h, Order.mem_sort, mem_founders_iff]
  · intro address tree htree c
    rw [ofRoster_eq h] at htree
    have hmem := (hfamily.generation_of_treeAt? hfamily.seeds_generation htree).1
    rw [hfamily.roots_children htree]
    exact hfamily.mem_offspring tree.label hmem c

/-- A limit that is positive and at least the number of founders builds the whole
thread. -/
theorem build_holdsWhole
    (comments : List Comment) (order : Order) {limit : UInt64} (hlimit : limit ≠ 0)
    (hroots : (founders comments).length ≤ limit.toNat) :
    ∃ thread, (build comments limit order).value = .ok thread ∧ HoldsWhole comments thread := by
  have hknows := Roster.knows_ofList comments
  have hwhole : (ofRoster (Roster.ofList comments) order).take limit.toNat =
      ofRoster (Roster.ofList comments) order := by
    apply Forest.take_eq_self
    rw [rootCount_ofRoster hknows]
    exact hroots
  refine ⟨ofRoster (Roster.ofList comments) order, ?_, holdsWhole_ofRoster hknows order⟩
  rw [value_build hlimit, hwhole]

/-- A root with a reply, two comments that each name the other as their parent, a
comment that comes too late, and one that names itself. -/
def besideCircle : List Comment :=
  [(1, none), (2, some 1), (3, some 4), (4, some 3), (2, some 4), (5, some 5)].map
    fun (id, parent) =>
      { id := ⟨id⟩
        parent := parent.map CommentId.mk
        commentable := { kind := .article, id := 1 }
        user := ⟨1⟩
        createdAt := .epoch }

theorem build_holdsWhole_besideCircle :
    (2 : UInt64) ≠ 0 ∧ (founders besideCircle).length ≤ (2 : UInt64).toNat ∧
      ∃ thread, (build besideCircle 2 .oldest).value = .ok thread ∧
        HoldsWhole besideCircle thread :=
  ⟨by decide, by decide, build_holdsWhole besideCircle .oldest (by decide) (by decide)⟩

/-- A limit of zero is refused, also where no comment is a founder. -/
theorem not_build_holdsWhole_zero :
    (founders []).length ≤ (0 : UInt64).toNat ∧
      ¬∃ thread, (build [] 0 .top).value = .ok thread ∧ HoldsWhole [] thread := by
  refine ⟨Nat.le_refl 0, ?_⟩
  rintro ⟨thread, hbuild, _⟩
  simp [build] at hbuild

end Thread

end Discussion
