import Discussion.Proofs.Thread.Placing
import Discussion.Proofs.Thread.Subtree

/-!
# Threads from a backlog

The comments of a list wait for a place in a backlog: the roots, and a bundle of replies
for every comment that has some.  The bundles come in any order, as a map enumerates
them.  A thread is placed from the roots on.  A subtree starts with a search for its
root, which is taken out of wherever it waits, so that it is placed at the top and
nowhere else.  Both give the threads that are grown from a roster, in whatever order the
bundles come.
-/

namespace Discussion

/-- The comments that wait for a place. -/
structure Backlog where
  roots : List Comment
  bundles : List Bundle

namespace Backlog

/-- Takes the first comment with a number out of a list. -/
def takeFrom? (id : CommentId) (list : List Comment) : Option (Comment × List Comment) :=
  (first? list id).map fun c => (c, list.eraseP fun d => d.id == id)

/-- Takes the comment with a number out of the first bundle that holds it. -/
def takeReply? (id : CommentId) : List Bundle → Option (Comment × List Bundle)
  | [] => none
  | bundle :: rest =>
      match takeFrom? id bundle.2 with
      | some (c, left) => some (c, (bundle.1, left) :: rest)
      | none => (takeReply? id rest).map fun (c, left) => (c, bundle :: left)

/-- Takes the comment with a number out of wherever it waits. -/
def take? (backlog : Backlog) (id : CommentId) : Option (Comment × Backlog) :=
  match takeFrom? id backlog.roots with
  | some (c, left) => some (c, { backlog with roots := left })
  | none =>
      (takeReply? id backlog.bundles).map fun (c, left) => (c, { backlog with bundles := left })

/-- The whole thread, placed from its roots on. -/
def thread (backlog : Backlog) (order : Order) : Thread :=
  (Bundle.placeAll order backlog.bundles (order.sort backlog.roots)).1

/-- The subtree of the comment with a number, which is taken out first. -/
def subtree (backlog : Backlog) (root : CommentId) (order : Order) : Except Fault Thread :=
  match backlog.take? root with
  | none => .error (.noComment root)
  | some (c, left) =>
      let tree := (Bundle.place order left.bundles c).1
      .ok (.node tree.label tree.children .nil)

end Backlog

/-- The backlog of a roster, with its bundles in an order in which they may come. -/
def Roster.backlog (roster : Roster) (bundles : List Bundle) : Backlog :=
  { roots := roster.roots, bundles := bundles }

/-! ## Taking a comment out -/

namespace Backlog

/-- A bundle without the reply that has a number. -/
def without (id : CommentId) (bundle : Bundle) : Bundle :=
  (bundle.1, bundle.2.filter fun reply => reply.id != id)

theorem filter_eq_self_of_first?
    {list : List Comment} {id : CommentId} (h : first? list id = none) :
    (list.filter fun d => d.id != id) = list := by
  rw [List.filter_eq_self]
  intro d hd
  simpa using List.find?_eq_none.mp h d hd

theorem map_without_eq_self
    {id : CommentId} {bundles : List Bundle}
    (h : first? (bundles.flatMap (·.2)) id = none) :
    bundles.map (without id) = bundles := by
  induction bundles with
  | nil => rfl
  | cons bundle rest ih =>
      rw [List.flatMap_cons, first?, List.find?_append, Option.or_eq_none_iff] at h
      rw [List.map_cons, without, filter_eq_self_of_first? h.1, ih h.2]

theorem eraseP_eq_filter
    {list : List Comment} (hids : (list.map (·.id)).Nodup) (id : CommentId) :
    (list.eraseP fun d => d.id == id) = list.filter fun d => d.id != id := by
  induction list with
  | nil => rfl
  | cons c rest ih =>
      rw [List.map_cons, List.nodup_cons] at hids
      by_cases hid : c.id = id
      · have hrest : (rest.filter fun d => d.id != id) = rest := by
          rw [List.filter_eq_self]
          intro d hd
          have hne : d.id ≠ id := fun h => hids.1 (hid ▸ h ▸ List.mem_map.mpr ⟨d, hd, rfl⟩)
          simpa using hne
        simp [hid, hrest]
      · simp [hid, ih hids.2]

theorem takeFrom?_eq
    {list : List Comment} (hids : (list.map (·.id)).Nodup) (id : CommentId) :
    takeFrom? id list = (first? list id).map fun c => (c, list.filter fun d => d.id != id) := by
  rw [takeFrom?, eraseP_eq_filter hids]

/-- Where no number is repeated, it does not matter in which order the bundles are
searched. -/
theorem takeReply?_eq
    {bundles : List Bundle} (hids : ((bundles.flatMap (·.2)).map (·.id)).Nodup)
    (id : CommentId) :
    takeReply? id bundles =
      (first? (bundles.flatMap (·.2)) id).map fun c => (c, bundles.map (without id)) := by
  induction bundles with
  | nil => rfl
  | cons bundle rest ih =>
      rw [List.flatMap_cons, List.map_append, List.nodup_append] at hids
      obtain ⟨hbundle, hrest, hapart⟩ := hids
      rw [takeReply?, takeFrom?_eq hbundle, ih hrest, List.flatMap_cons, List.map_cons]
      cases hfirst : first? bundle.2 id with
      | some c =>
          have hnone : first? (rest.flatMap (·.2)) id = none := by
            refine List.find?_eq_none.mpr fun d hd hid => ?_
            have hdid : d.id = id := by simpa using hid
            have hc := (first?_eq_some_iff hbundle).mp hfirst
            exact hapart _ (List.mem_map.mpr ⟨c, hc.1, rfl⟩) _ (List.mem_map.mpr ⟨d, hd, rfl⟩)
              (hc.2.trans hdid.symm)
          have hboth : first? (bundle.2 ++ rest.flatMap (·.2)) id = some c := by
            rw [first?, List.find?_append]
            exact congrArg (fun found => Option.or found _) hfirst
          rw [hboth, map_without_eq_self hnone]
          rfl
      | none =>
          have hboth : first? (bundle.2 ++ rest.flatMap (·.2)) id =
              first? (rest.flatMap (·.2)) id := by
            rw [first?, List.find?_append]
            exact congrArg (fun found => Option.or found _) hfirst
          rw [hboth, without, filter_eq_self_of_first? hfirst, Option.map_none, Option.map_map]
          rfl

theorem repliesTo_map_without (id : CommentId) (bundles : List Bundle) (parent : CommentId) :
    Bundle.repliesTo (bundles.map (without id)) parent =
      (Bundle.repliesTo bundles parent).filter fun reply => reply.id != id := by
  induction bundles with
  | nil => rfl
  | cons bundle rest ih =>
      rw [List.map_cons, Bundle.repliesTo_cons, Bundle.repliesTo_cons, ih, without]
      by_cases hkey : bundle.1 = parent <;> simp [hkey]

end Backlog

/-! ## The bundles of a roster -/

namespace Roster

theorem mem_bundles_iff
    {roster : Roster} {bundles : List Bundle} (hbundles : bundles.Perm roster.replies.toList)
    {bundle : Bundle} :
    bundle ∈ bundles ↔ roster.replies[bundle.1]? = some bundle.2 := by
  rw [hbundles.mem_iff]
  exact Std.HashMap.mem_toList_iff_getElem?_eq_some

theorem repliesTo_bundles
    {roster : Roster} {bundles : List Bundle} (hbundles : bundles.Perm roster.replies.toList)
    (id : CommentId) :
    Bundle.repliesTo bundles id = roster.replies.getD id [] := by
  rw [Bundle.repliesTo, Std.HashMap.getD_eq_getD_getElem?]
  congr 1
  cases hfind : bundles.find? fun bundle => bundle.1 == id with
  | some bundle =>
      obtain rfl : bundle.1 = id := by simpa using List.find?_some hfind
      exact ((mem_bundles_iff hbundles).mp (List.mem_of_find?_eq_some hfind)).symm
  | none =>
      cases hlookup : roster.replies[id]? with
      | none => rfl
      | some replies =>
          have hmem : (id, replies) ∈ bundles := (mem_bundles_iff hbundles).mpr hlookup
          simpa using List.find?_eq_none.mp hfind _ hmem

theorem eq_getD_of_mem_bundles
    {roster : Roster} {bundles : List Bundle} (hbundles : bundles.Perm roster.replies.toList)
    {bundle : Bundle} (h : bundle ∈ bundles) :
    bundle.2 = roster.replies.getD bundle.1 [] := by
  rw [Std.HashMap.getD_eq_getD_getElem?, (mem_bundles_iff hbundles).mp h, Option.getD_some]

/-- Every reply is a member that waits in the bundle of its parent. -/
theorem member_of_mem_bundle
    {roster : Roster} {bundles : List Bundle} (hbundles : bundles.Perm roster.replies.toList)
    {bundle : Bundle} (h : bundle ∈ bundles) {c : Comment} (hc : c ∈ bundle.2) :
    c ∈ roster.members.toList ∧ roster.parent? c = some bundle.1 := by
  rw [eq_getD_of_mem_bundles hbundles h, getD_replies, List.mem_filter, decide_eq_true_iff] at hc
  exact hc

namespace Knows

variable {roster : Roster} {comments : List Comment} {bundles : List Bundle}

theorem mem_bundled_iff
    (h : roster.Knows comments) (hbundles : bundles.Perm roster.replies.toList) {c : Comment} :
    c ∈ bundles.flatMap (·.2) ↔
      c ∈ firsts comments ∧ ∃ parent, resolvedParent? comments c = some parent := by
  rw [List.mem_flatMap]
  constructor
  · rintro ⟨bundle, hbundle, hc⟩
    obtain ⟨hmem, hkey⟩ := member_of_mem_bundle hbundles hbundle hc
    rw [h.members_eq] at hmem
    rw [h.parent?_eq, Option.map_eq_some_iff] at hkey
    obtain ⟨parent, hparent, _⟩ := hkey
    exact ⟨hmem, parent, hparent⟩
  · rintro ⟨hc, parent, hparent⟩
    have hreply := (h.mem_replies_iff (mem_firsts_of_resolvedParent? hparent)).mpr ⟨hc, hparent⟩
    rw [Std.HashMap.getD_eq_getD_getElem?] at hreply
    cases hlookup : roster.replies[parent.id]? with
    | none => simp [hlookup] at hreply
    | some replies =>
        rw [hlookup] at hreply
        exact ⟨(parent.id, replies), (mem_bundles_iff hbundles).mpr hlookup, hreply⟩

theorem nodup_ids_bundled
    (h : roster.Knows comments) (hbundles : bundles.Perm roster.replies.toList) :
    ((bundles.flatMap (·.2)).map (·.id)).Nodup := by
  apply nodup_ids_of_subset_firsts
  · rw [List.nodup_flatMap]
    constructor
    · intro bundle hbundle
      rw [eq_getD_of_mem_bundles hbundles hbundle]
      exact (h.nodup_ids_replies bundle.1).of_map
    · -- A comment names one parent, so it waits in one bundle only.
      have hkeys : bundles.Pairwise fun a b => (a.1 == b.1) = false := by
        refine (hbundles.pairwise_iff ?_).mpr Std.HashMap.distinct_keys_toList
        intro a b hab
        rw [BEq.comm]
        exact hab
      refine hkeys.imp_of_mem ?_
      intro a b ha hb hab c hca hcb
      have hkeya := (member_of_mem_bundle hbundles ha hca).2
      have hkeyb := (member_of_mem_bundle hbundles hb hcb).2
      have hkey : a.1 = b.1 := Option.some.inj (hkeya.symm.trans hkeyb)
      simp [hkey] at hab
  · intro c hc
    exact ((h.mem_bundled_iff hbundles).mp hc).1

/-! ## Placing from a backlog -/

/-- The roots are the first comments without a parent that counts. -/
theorem first?_roots (h : roster.Knows comments) (id : CommentId) :
    first? roster.roots id =
      (first? comments id).filter fun c => (resolvedParent? comments c).isNone := by
  apply Option.ext
  intro c
  rw [first?_eq_some_iff h.nodup_ids_roots, h.roots_eq, mem_founders_iff, mem_firsts_iff,
    Option.filter_eq_some_iff, Option.isNone_iff_eq_none]
  constructor
  · rintro ⟨⟨hfirst, hfounder⟩, rfl⟩
    exact ⟨hfirst, hfounder⟩
  · rintro ⟨hfirst, hfounder⟩
    obtain rfl := id_of_first? hfirst
    exact ⟨⟨hfirst, hfounder⟩, rfl⟩

/-- The bundles hold all other first comments. -/
theorem first?_bundled
    (h : roster.Knows comments) (hbundles : bundles.Perm roster.replies.toList)
    (id : CommentId) :
    first? (bundles.flatMap (·.2)) id =
      (first? comments id).filter fun c => (resolvedParent? comments c).isSome := by
  apply Option.ext
  intro c
  rw [first?_eq_some_iff (h.nodup_ids_bundled hbundles), h.mem_bundled_iff hbundles,
    mem_firsts_iff, Option.filter_eq_some_iff, Option.isSome_iff_exists]
  constructor
  · rintro ⟨⟨hfirst, hparent⟩, rfl⟩
    exact ⟨hfirst, hparent⟩
  · rintro ⟨hfirst, hparent⟩
    obtain rfl := id_of_first? hfirst
    exact ⟨⟨hfirst, hparent⟩, rfl⟩

theorem take?_backlog
    (h : roster.Knows comments) (hbundles : bundles.Perm roster.replies.toList)
    (id : CommentId) :
    (roster.backlog bundles).take? id =
      match first? roster.roots id with
      | some c => some (c, { roots := roster.roots.filter fun d => d.id != id, bundles := bundles })
      | none => (first? (bundles.flatMap (·.2)) id).map fun c =>
          (c, { roots := roster.roots, bundles := bundles.map (Backlog.without id) }) := by
  simp only [Backlog.take?, backlog, Backlog.takeFrom?_eq h.nodup_ids_roots,
    Backlog.takeReply?_eq (h.nodup_ids_bundled hbundles)]
  cases first? roster.roots id with
  | some c => rfl
  | none => simp only [Option.map_none, Option.map_map, Function.comp_def]

theorem take?_eq_none
    (h : roster.Knows comments) (hbundles : bundles.Perm roster.replies.toList) {id : CommentId}
    (hnone : first? comments id = none) :
    (roster.backlog bundles).take? id = none := by
  simp [h.take?_backlog hbundles, h.first?_roots, h.first?_bundled hbundles, hnone]

/-- The comment that is taken out is the first of its number, and no bundle holds it
any more. -/
theorem take?_eq_some
    (h : roster.Knows comments) (hbundles : bundles.Perm roster.replies.toList)
    {id : CommentId} {c : Comment} (hfirst : first? comments id = some c) :
    ∃ left, (roster.backlog bundles).take? id = some (c, left) ∧
      left.bundles = bundles.map (Backlog.without id) := by
  have hroots := h.first?_roots id
  have hbundled := h.first?_bundled hbundles id
  rw [h.take?_backlog hbundles]
  cases hparent : resolvedParent? comments c with
  | none =>
      have hfree : first? (bundles.flatMap (·.2)) id = none := by
        simp [hbundled, hfirst, hparent]
      rw [hroots, hfirst, Option.filter_some_pos (by simp [hparent])]
      exact ⟨_, rfl, (Backlog.map_without_eq_self hfree).symm⟩
  | some parent =>
      have hfree : first? roster.roots id = none := by
        simp [hroots, hfirst, hparent]
      rw [hfree, hbundled, hfirst, Option.filter_some_pos (by simp [hparent])]
      exact ⟨_, rfl, rfl⟩

/-- The roots are placed with all that stands below them in the whole thread, and the bundles of
its comments are taken away. -/
theorem placeAll_roots
    (h : roster.Knows comments) (hbundles : bundles.Perm roster.replies.toList)
    (order : Order) :
    Bundle.placeAll order bundles (order.sort roster.roots) =
      (Thread.ofRoster roster order,
        Bundle.discard bundles ((Thread.ofRoster roster order).labels.map (·.id))) := by
  have hsorted : Bundle.sortedReplies order bundles = roster.sortedReplies order := by
    funext c
    rw [Bundle.sortedReplies, repliesTo_bundles hbundles, sortedReplies]
  have hfollows : (Thread.ofRoster roster order).Follows (Bundle.sortedReplies order bundles) := by
    rw [hsorted]
    exact Thread.follows_ofRoster h order
  have hroots : order.sort roster.roots = (Thread.ofRoster roster order).roots.map (·.label) := by
    rw [Thread.roots_ofRoster h, h.roots_eq]
  rw [hroots, Bundle.placeAll_eq hfollows (Thread.holdsWhole_ofRoster h order).ids_nodup]

theorem subtree_backlog
    (h : roster.Knows comments) (hbundles : bundles.Perm roster.replies.toList)
    (root : CommentId) (order : Order) :
    (roster.backlog bundles).subtree root order =
      match first? comments root with
      | none => .error (.noComment root)
      | some c => .ok (Thread.subtreeOfRoster roster c order) := by
  cases hfirst : first? comments root with
  | none => rw [Backlog.subtree, h.take?_eq_none hbundles hfirst]
  | some c =>
      obtain ⟨left, htake, hleft⟩ := h.take?_eq_some hbundles hfirst
      have hc := mem_firsts_of_first? hfirst
      obtain rfl := id_of_first? hfirst
      have hsorted : Bundle.sortedReplies order left.bundles = roster.repliesBut c.id order := by
        funext d
        rw [Bundle.sortedReplies, hleft, Backlog.repliesTo_map_without,
          repliesTo_bundles hbundles, repliesBut]
      have hfollows := Thread.follows_subtreeOfRoster h hc order
      have hids := Thread.nodup_ids_subtreeOfRoster h hc order
      obtain ⟨children, hnode⟩ :=
        Forest.exists_eq_node_of_roots (Thread.roots_subtreeOfRoster h hc order)
      rw [hnode, ← hsorted] at hfollows
      rw [hnode, Forest.labels_node, Forest.labels_nil, List.append_nil] at hids
      simp only [Backlog.subtree, htake, Bundle.place_eq hfollows hids, hnode]

end Knows

end Roster

/-! ## Threads and subtrees of a list -/

namespace Thread

/-- A thread consists of the first trees that are placed from the backlog of its comments, in
whatever order the bundles of replies come. -/
theorem value_build_eq_backlog
    {limit : UInt64} (hlimit : limit ≠ 0) (comments : List Comment) (order : Order)
    {bundles : List Bundle} (hbundles : bundles.Perm (Roster.ofList comments).replies.toList) :
    (build comments limit order).value =
      .ok ((((Roster.ofList comments).backlog bundles).thread order).take limit.toNat) := by
  have hplaced := (Roster.knows_ofList comments).placeAll_roots hbundles order
  rw [value_build hlimit, Backlog.thread, Roster.backlog, hplaced]

/-- A subtree is refused exactly if no comment has the number that is asked for.
Otherwise it holds what lies below the first comment of that number, also where the
parents lead round in a circle.  Placing it from a backlog gives the same, in whatever
order the bundles of replies come. -/
theorem buildSubtree_holdsSubtree (comments : List Comment) (root : CommentId) (order : Order) :
    ((buildSubtree comments root order).value = .error (.noComment root) ↔
        ∀ c ∈ comments, c.id ≠ root) ∧
      ((∃ c ∈ comments, c.id = root) → ∃ first thread, first? comments root = some first ∧
        (buildSubtree comments root order).value = .ok thread ∧
          HoldsSubtree comments order first thread) ∧
      ∀ bundles, bundles.Perm (Roster.ofList comments).replies.toList →
        ((Roster.ofList comments).backlog bundles).subtree root order =
          (buildSubtree comments root order).value := by
  have hknows := Roster.knows_ofList comments
  have hnone : first? comments root = none ↔ ∀ c ∈ comments, c.id ≠ root := by
    simp [first?]
  rw [value_buildSubtree]
  refine ⟨?_, ?_, fun bundles hbundles => hknows.subtree_backlog hbundles root order⟩
  · rw [← hnone]
    cases first? comments root with
    | none => simp
    | some first => simp
  · rintro ⟨c, hc, hid⟩
    cases hfirst : first? comments root with
    | none => exact absurd hid (hnone.mp hfirst c hc)
    | some first =>
        exact ⟨first, _, rfl, rfl,
          holdsSubtree_subtreeOfRoster hknows (mem_firsts_of_first? hfirst) order⟩

end Thread

end Discussion
