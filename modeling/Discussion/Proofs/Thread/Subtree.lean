import Discussion.Proofs.Thread.Whole

/-!
# What the subtree of a comment holds

A subtree may start at any first comment of a list, also at one whose parents lead round
in a circle.  It is the forest of the family in which that comment has been made a
founder: the comments whose line of parents leads to it, each once, below its parent and
in the order of siblings.
-/

namespace Discussion

/-- Whether a thread holds what lies below a comment of a list, every comment once, at
its place and in its order. -/
structure HoldsSubtree (comments : List Comment) (order : Order) (root : Comment)
    (thread : Thread) : Prop where
  root_alone : thread.roots.map (·.label) = [root]
  ids_nodup : (thread.labels.map (·.id)).Nodup
  mem_labels : ∀ c, c ∈ thread.labels ↔
    c ∈ firsts comments ∧ DescendsFrom (resolvedParent? comments) c root
  below_parent : ∀ address i tree child, thread.treeAt? address = some tree →
    thread.treeAt? (address ++ [i]) = some child →
      resolvedParent? comments child.label = some tree.label
  increasing : ∀ address tree, thread.treeAt? address = some tree →
    (tree.children.roots.map (·.label)).Pairwise fun a b => order.compare a b = .lt
  circle : ∀ tree ∈ thread.roots, root ∉ tree.children.labels ∧
    ∀ c, c ≠ root → DescendsFrom (resolvedParent? comments) root c →
      DescendsFrom (resolvedParent? comments) c root → c ∈ tree.children.labels

namespace Roster

/-- The sorted replies to a comment among all comments but one. -/
def repliesBut (roster : Roster) (root : CommentId) (order : Order) (c : Comment) :
    List Comment :=
  order.sort ((roster.replies.getD c.id []).filter fun reply => reply.id != root)

namespace Knows

variable {roster : Roster} {comments : List Comment}

theorem mem_repliesBut_iff
    (h : roster.Knows comments) {root parent c : Comment} (hroot : root ∈ firsts comments)
    (hparent : parent ∈ firsts comments) {order : Order} :
    c ∈ roster.repliesBut root.id order parent ↔
      c ∈ firsts comments ∧ foundedBy root (resolvedParent? comments) c = some parent := by
  rw [repliesBut, Order.mem_sort, List.mem_filter, h.mem_replies_iff hparent,
    foundedBy_eq_some_iff]
  constructor
  · rintro ⟨⟨hc, hresolved⟩, hid⟩
    refine ⟨hc, ?_, hresolved⟩
    rintro rfl
    simp at hid
  · rintro ⟨hc, hne, hresolved⟩
    refine ⟨⟨hc, hresolved⟩, ?_⟩
    have hid : c.id ≠ root.id := fun hid => hne (eq_of_mem_firsts hc hroot hid)
    simpa using hid

theorem nodup_ids_replies (h : roster.Knows comments) (id : CommentId) :
    ((roster.replies.getD id []).map (·.id)).Nodup := by
  rw [getD_replies, h.members_eq]
  exact (nodup_ids_firsts comments).sublist (List.filter_sublist.map _)

theorem nodup_ids_filter_replies
    (h : roster.Knows comments) (id : CommentId) (p : Comment → Bool) :
    (((roster.replies.getD id []).filter p).map (·.id)).Nodup :=
  (h.nodup_ids_replies id).sublist (List.filter_sublist.map _)

theorem nodup_ids_repliesBut
    (h : roster.Knows comments) (root : CommentId) (order : Order) (c : Comment) :
    ((roster.repliesBut root order c).map (·.id)).Nodup := by
  rw [repliesBut, ((order.sort_perm _).map _).nodup_iff]
  exact h.nodup_ids_filter_replies c.id _

theorem nodup_ids_roots (h : roster.Knows comments) : (roster.roots.map (·.id)).Nodup := by
  rw [h.roots_eq]
  exact nodup_ids_founders comments

/-- The family in which a comment has been made the only founder. -/
theorem isFamily_foundedBy
    (h : roster.Knows comments) {root : Comment} (hroot : root ∈ firsts comments)
    (order : Order) :
    IsFamily (foundedBy root (resolvedParent? comments)) (firsts comments)
      (roster.repliesBut root.id order) [root] := by
  constructor
  · intro a _ b hab
    exact mem_firsts_of_resolvedParent? (foundedBy_eq_some_iff.mp hab).2
  · intro a _
    exact (h.nodup_ids_repliesBut root.id order a).of_map
  · intro a ha c
    exact h.mem_repliesBut_iff hroot ha
  · simp
  · intro a ha
    obtain rfl := List.mem_singleton.mp ha
    exact ⟨hroot, foundedBy_self⟩

end Knows

end Roster

namespace Thread

theorem subtreeOfRoster_eq
    {roster : Roster} {comments : List Comment} (h : roster.Knows comments) (root : Comment)
    (order : Order) :
    subtreeOfRoster roster root order =
      Forest.grow (roster.repliesBut root.id order) (firsts comments).length [root] := by
  rw [subtreeOfRoster, Forest.growLevels_eq, ← h.members_eq, Array.length_toList]
  rfl

theorem roots_subtreeOfRoster
    {roster : Roster} {comments : List Comment} (h : roster.Knows comments) {root : Comment}
    (hroot : root ∈ firsts comments) (order : Order) :
    (subtreeOfRoster roster root order).roots.map (·.label) = [root] := by
  obtain ⟨depth, hdepth⟩ := Nat.exists_eq_succ_of_ne_zero (List.length_pos_of_mem hroot).ne'
  rw [subtreeOfRoster_eq h, hdepth]
  exact Forest.roots_grow_succ _ _ _

theorem follows_subtreeOfRoster
    {roster : Roster} {comments : List Comment} (h : roster.Knows comments) {root : Comment}
    (hroot : root ∈ firsts comments) (order : Order) :
    (subtreeOfRoster roster root order).Follows (roster.repliesBut root.id order) := by
  rw [subtreeOfRoster_eq h]
  exact (h.isFamily_foundedBy hroot order).follows_grow

theorem mem_labels_subtreeOfRoster_iff
    {roster : Roster} {comments : List Comment} (h : roster.Knows comments) {root c : Comment}
    (hroot : root ∈ firsts comments) {order : Order} :
    c ∈ (subtreeOfRoster roster root order).labels ↔
      c ∈ firsts comments ∧ DescendsFrom (resolvedParent? comments) c root := by
  rw [subtreeOfRoster_eq h, (h.isFamily_foundedBy hroot order).mem_labels_grow_iff,
    ← descendsFrom_foundedBy_iff]
  simp

theorem nodup_ids_subtreeOfRoster
    {roster : Roster} {comments : List Comment} (h : roster.Knows comments) {root : Comment}
    (hroot : root ∈ firsts comments) (order : Order) :
    ((subtreeOfRoster roster root order).labels.map (·.id)).Nodup := by
  apply nodup_ids_of_subset_firsts
  · rw [subtreeOfRoster_eq h]
    exact (h.isFamily_foundedBy hroot order).nodup_labels _
  · intro c hc
    exact ((mem_labels_subtreeOfRoster_iff h hroot).mp hc).1

/-- Every reply in a subtree stands below its parent. -/
theorem resolvedParent?_of_mem_subtreeOfRoster
    {roster : Roster} {comments : List Comment} (h : roster.Knows comments) {root : Comment}
    (hroot : root ∈ firsts comments) {order : Order} {tree child : Tree Comment}
    (htree : tree ∈ (subtreeOfRoster roster root order).subtrees)
    (hchild : child ∈ tree.children.roots) :
    resolvedParent? comments child.label = some tree.label := by
  have hmem : tree.label ∈ firsts comments :=
    ((mem_labels_subtreeOfRoster_iff h hroot).mp (Forest.mem_labels_of_mem_subtrees htree)).1
  have hlabel : child.label ∈ tree.children.roots.map (·.label) :=
    List.mem_map.mpr ⟨child, hchild, rfl⟩
  rw [follows_subtreeOfRoster h hroot order tree htree,
    h.mem_repliesBut_iff hroot hmem] at hlabel
  exact (foundedBy_eq_some_iff.mp hlabel.2).2

/-- The root comes first in a subtree, and all others stand below it. -/
theorem mem_below_iff_of_mem_roots
    {roster : Roster} {comments : List Comment} (h : roster.Knows comments) {root : Comment}
    (hroot : root ∈ firsts comments) {order : Order} {tree : Tree Comment}
    (htree : tree ∈ (subtreeOfRoster roster root order).roots) {c : Comment} :
    c ∈ tree.children.labels ↔
      c ≠ root ∧ c ∈ firsts comments ∧ DescendsFrom (resolvedParent? comments) c root := by
  obtain ⟨children, heq⟩ :=
    Forest.exists_eq_node_of_roots (roots_subtreeOfRoster h hroot order)
  obtain rfl : tree = { label := root, children := children } := by
    rw [heq] at htree
    simpa [Forest.roots] using htree
  have hdistinct := (nodup_ids_subtreeOfRoster h hroot order).of_map
  have hmem : c ∈ (subtreeOfRoster roster root order).labels ↔
      c ∈ firsts comments ∧ DescendsFrom (resolvedParent? comments) c root :=
    mem_labels_subtreeOfRoster_iff h hroot
  rw [heq, Forest.labels_node, Forest.labels_nil, List.append_nil, List.mem_cons] at hmem
  rw [heq, Forest.labels_node, Forest.labels_nil, List.append_nil, List.nodup_cons] at hdistinct
  rw [← hmem]
  constructor
  · intro hc
    refine ⟨?_, Or.inr hc⟩
    rintro rfl
    exact hdistinct.1 hc
  · rintro ⟨hne, hc⟩
    exact hc.resolve_left hne

theorem holdsSubtree_subtreeOfRoster
    {roster : Roster} {comments : List Comment} (h : roster.Knows comments) {root : Comment}
    (hroot : root ∈ firsts comments) (order : Order) :
    HoldsSubtree comments order root (subtreeOfRoster roster root order) := by
  refine {
    root_alone := roots_subtreeOfRoster h hroot order
    ids_nodup := nodup_ids_subtreeOfRoster h hroot order
    mem_labels := fun c => mem_labels_subtreeOfRoster_iff h hroot
    below_parent := ?_
    increasing := ?_
    circle := ?_ }
  · intro address i tree child htree hchild
    rw [Forest.treeAt?_concat htree] at hchild
    exact resolvedParent?_of_mem_subtreeOfRoster h hroot
      (Forest.mem_subtrees_iff.mpr ⟨address, htree⟩) (List.mem_of_getElem? hchild)
  · intro address tree htree
    rw [follows_subtreeOfRoster h hroot order tree (Forest.mem_subtrees_iff.mpr ⟨address, htree⟩)]
    exact Order.pairwise_lt_sort (h.nodup_ids_filter_replies _ _)
  · intro tree htree
    constructor
    · intro hself
      exact ((mem_below_iff_of_mem_roots h hroot htree).mp hself).1 rfl
    · intro c hne hdown hup
      exact (mem_below_iff_of_mem_roots h hroot htree).mpr
        ⟨hne, mem_firsts_of_descendsFrom hroot hdown, hup⟩

end Thread

end Discussion
