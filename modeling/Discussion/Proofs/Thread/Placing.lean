import Mathlib.Data.List.Flatten
import Discussion.Proofs.Forest.Following
import Discussion.Proofs.Order.Laws
import Discussion.Thread.Basic

/-!
# Placing replies one at a time

A thread can be put together from bundles of replies, one bundle for the replies to one
comment, without a bound on its depth.  To place a comment means to take its bundle away
and to place the replies in it, depth first, with a frame for every comment whose replies
are still being placed.  A bundle is taken away at most once, so that the placing ends
whatever the parents are.  If the comments of a forest have different numbers and the
bundles hold the replies to each of them, the placing gives the forest and leaves the
other bundles alone.
-/

namespace Discussion

/-- The replies to the comment with a number. -/
abbrev Bundle := CommentId × List Comment

namespace Bundle

/-- The replies to a comment that wait in some bundles. -/
def repliesTo (bundles : List Bundle) (id : CommentId) : List Comment :=
  ((bundles.find? fun bundle => bundle.1 == id).map (·.2)).getD []

/-- The bundles but for those of some comments. -/
def discard (bundles : List Bundle) (ids : List CommentId) : List Bundle :=
  bundles.filter fun bundle => !ids.contains bundle.1

/-- The number of replies that wait in some bundles. -/
def waiting (bundles : List Bundle) : Nat :=
  (bundles.flatMap (·.2)).length

theorem repliesTo_cons (bundle : Bundle) (rest : List Bundle) (id : CommentId) :
    repliesTo (bundle :: rest) id = if bundle.1 = id then bundle.2 else repliesTo rest id := by
  by_cases hkey : bundle.1 = id <;> simp [repliesTo, hkey]

theorem discard_cons (bundle : Bundle) (rest : List Bundle) (ids : List CommentId) :
    discard (bundle :: rest) ids =
      if bundle.1 ∈ ids then discard rest ids else bundle :: discard rest ids := by
  by_cases hkey : bundle.1 ∈ ids <;> simp [discard, hkey]

theorem waiting_cons (bundle : Bundle) (rest : List Bundle) :
    waiting (bundle :: rest) = bundle.2.length + waiting rest := by
  simp [waiting]

@[simp]
theorem discard_nil (bundles : List Bundle) : discard bundles [] = bundles := by
  simp [discard]

theorem discard_discard (bundles : List Bundle) (first second : List CommentId) :
    discard (discard bundles first) second = discard bundles (first ++ second) := by
  induction bundles with
  | nil => rfl
  | cons bundle rest ih =>
      by_cases hfirst : bundle.1 ∈ first <;> by_cases hsecond : bundle.1 ∈ second <;>
        simp [discard_cons, hfirst, hsecond, ih]

theorem repliesTo_discard
    (bundles : List Bundle) {ids : List CommentId} {id : CommentId} (hid : id ∉ ids) :
    repliesTo (discard bundles ids) id = repliesTo bundles id := by
  induction bundles with
  | nil => rfl
  | cons bundle rest ih =>
      by_cases hkey : bundle.1 = id
      · simp [discard_cons, repliesTo_cons, hkey, hid]
      · by_cases hgone : bundle.1 ∈ ids <;> simp [discard_cons, repliesTo_cons, hkey, hgone, ih]

theorem waiting_discard_le (bundles : List Bundle) (ids : List CommentId) :
    waiting (discard bundles ids) ≤ waiting bundles :=
  (List.filter_sublist.flatMap _).length_le

/-- The replies that are taken away no longer wait. -/
theorem waiting_discard_add (bundles : List Bundle) (id : CommentId) :
    waiting (discard bundles [id]) + (repliesTo bundles id).length ≤ waiting bundles := by
  induction bundles with
  | nil => simp [waiting, discard, repliesTo]
  | cons bundle rest ih =>
      rw [waiting_cons, repliesTo_cons, discard_cons]
      by_cases hkey : bundle.1 = id
      · have hle := waiting_discard_le rest [id]
        simp only [hkey, List.mem_singleton, if_true]
        omega
      · simp only [hkey, List.mem_singleton, if_false, waiting_cons]
        omega

end Bundle

/-- A comment whose replies are being placed. -/
structure Frame where
  comment : Comment
  /-- The replies that have their place, each with all that stands below it. -/
  placed : List (Tree Comment)
  /-- The replies that have no place yet. -/
  pending : List Comment

namespace Frame

/-- The tree of a comment with the replies that have their place. -/
def tree (frame : Frame) : Tree Comment :=
  { label := frame.comment, children := Forest.ofTrees frame.placed }

/-- The number of replies that have no place yet in some frames. -/
def pendingCount (frames : List Frame) : Nat :=
  (frames.flatMap fun frame => frame.pending).length

end Frame

namespace Bundle

/-- Places all replies below the current frame and then those below the frames above it.
The result is the tree of the topmost frame, and the bundles that are left. -/
def attach (order : Order) :
    List Bundle → List Frame → Frame → Tree Comment × List Bundle
  | bundles, above, ⟨c, placed, reply :: pending⟩ =>
      attach order (discard bundles [reply.id]) (⟨c, placed, pending⟩ :: above)
        ⟨reply, [], order.sort (repliesTo bundles reply.id)⟩
  | bundles, parent :: above, ⟨c, placed, []⟩ =>
      attach order bundles above
        { parent with placed := parent.placed ++ [Frame.tree ⟨c, placed, []⟩] }
  | bundles, [], ⟨c, placed, []⟩ => (Frame.tree ⟨c, placed, []⟩, bundles)
termination_by bundles above current =>
  2 * (waiting bundles + Frame.pendingCount (current :: above)) + above.length
decreasing_by
  · have hle := waiting_discard_add bundles reply.id
    simp only [Frame.pendingCount, List.flatMap_cons, List.length_append, List.length_cons,
      Order.length_sort]
    omega
  · simp only [Frame.pendingCount, List.flatMap_cons, List.length_append, List.length_cons,
      List.length_nil]
    omega

/-- Places a comment and all that stands below it. -/
def place (order : Order) (bundles : List Bundle) (c : Comment) : Tree Comment × List Bundle :=
  attach order (discard bundles [c.id]) [] ⟨c, [], order.sort (repliesTo bundles c.id)⟩

/-- Places the comments of a list, one after the other. -/
def placeAll (order : Order) : List Bundle → List Comment → Thread × List Bundle
  | bundles, [] => (.nil, bundles)
  | bundles, c :: rest =>
      let first := place order bundles c
      let others := placeAll order first.2 rest
      (.node first.1.label first.1.children others.1, others.2)

/-! ## What is placed -/

/-- The sorted replies to a comment that wait in some bundles. -/
def sortedReplies (order : Order) (bundles : List Bundle) (c : Comment) : List Comment :=
  order.sort (repliesTo bundles c.id)

theorem follows_discard
    {order : Order} {bundles : List Bundle} {thread : Thread}
    (h : thread.Follows (sortedReplies order bundles)) {ids : List CommentId}
    (hids : ∀ c ∈ thread.labels, c.id ∉ ids) :
    thread.Follows (sortedReplies order (discard bundles ids)) := by
  refine h.congr fun c hc => ?_
  rw [sortedReplies, sortedReplies, repliesTo_discard bundles (hids c hc)]

/-- The pending roots of a forest are placed with all that stands below them, and the
bundles of the forest are taken away. -/
theorem attach_roots
    {order : Order} {thread : Thread} {bundles : List Bundle}
    (h : thread.Follows (sortedReplies order bundles))
    (hids : (thread.labels.map (·.id)).Nodup)
    (above : List Frame) (c : Comment) (placed : List (Tree Comment)) :
    attach order bundles above ⟨c, placed, thread.roots.map (·.label)⟩ =
      attach order (discard bundles (thread.labels.map (·.id))) above
        ⟨c, placed ++ thread.roots, []⟩ := by
  -- The induction is on the forest to be placed; what is left of the bundles still holds
  -- the replies to the comments that have no place yet, since their numbers are others.
  induction thread generalizing bundles above c placed with
  | nil => simp [Forest.roots]
  | node reply children siblings ihc ihs =>
      obtain ⟨hroots, hchildren, hsiblings⟩ := Forest.follows_node_iff.mp h
      rw [Forest.labels_node, List.map_cons, List.map_append, List.nodup_cons,
        List.nodup_append] at hids
      obtain ⟨hself, hidsc, hidss, hapart⟩ := hids
      have hbelow : children.Follows (sortedReplies order (discard bundles [reply.id])) := by
        refine follows_discard hchildren fun d hd hmem => hself ?_
        rw [← List.mem_singleton.mp hmem]
        exact List.mem_append_left _ (List.mem_map.mpr ⟨d, hd, rfl⟩)
      have hbeside : siblings.Follows (sortedReplies order
          (discard bundles (reply.id :: children.labels.map (·.id)))) := by
        refine follows_discard hsiblings fun d hd hmem => ?_
        have hdmem : d.id ∈ siblings.labels.map (·.id) := List.mem_map.mpr ⟨d, hd, rfl⟩
        rcases List.mem_cons.mp hmem with hid | hmem
        · exact hself (hid ▸ List.mem_append_right _ hdmem)
        · exact hapart _ hmem _ hdmem rfl
      have hsorted : order.sort (repliesTo bundles reply.id) = children.roots.map (·.label) :=
        hroots.symm
      rw [Forest.roots, List.map_cons, attach, hsorted, ihc hbelow hidsc, attach, Frame.tree,
        List.nil_append, ← Forest.trees_eq children, Forest.ofTrees_trees, discard_discard,
        List.singleton_append, ihs hbeside hidss, discard_discard]
      simp

theorem place_eq
    {order : Order} {bundles : List Bundle} {c : Comment} {children : Thread}
    (h : (Forest.node c children .nil).Follows (sortedReplies order bundles))
    (hids : ((c :: children.labels).map (·.id)).Nodup) :
    place order bundles c =
      ({ label := c, children := children },
        discard bundles ((c :: children.labels).map (·.id))) := by
  obtain ⟨hroots, hchildren, _⟩ := Forest.follows_node_iff.mp h
  rw [List.map_cons, List.nodup_cons] at hids
  have hbelow : children.Follows (sortedReplies order (discard bundles [c.id])) := by
    refine follows_discard hchildren fun d hd hmem => hids.1 ?_
    rw [← List.mem_singleton.mp hmem]
    exact List.mem_map.mpr ⟨d, hd, rfl⟩
  have hsorted : order.sort (repliesTo bundles c.id) = children.roots.map (·.label) :=
    hroots.symm
  rw [place, hsorted, attach_roots hbelow hids.2, attach, Frame.tree, List.nil_append,
    ← Forest.trees_eq, Forest.ofTrees_trees, discard_discard]
  rfl

theorem placeAll_eq
    {order : Order} {thread : Thread} {bundles : List Bundle}
    (h : thread.Follows (sortedReplies order bundles))
    (hids : (thread.labels.map (·.id)).Nodup) :
    placeAll order bundles (thread.roots.map (·.label)) =
      (thread, discard bundles (thread.labels.map (·.id))) := by
  induction thread generalizing bundles with
  | nil => simp [Forest.roots, placeAll]
  | node c children siblings _ ih =>
      obtain ⟨hroots, hchildren, hsiblings⟩ := Forest.follows_node_iff.mp h
      have hfirst : (Forest.node c children .nil).Follows (sortedReplies order bundles) :=
        Forest.follows_node_iff.mpr ⟨hroots, hchildren, by simp [Forest.Follows]⟩
      rw [Forest.labels_node, ← List.cons_append, List.map_append, List.nodup_append] at hids
      obtain ⟨hidsc, hidss, hapart⟩ := hids
      have hbeside : siblings.Follows (sortedReplies order
          (discard bundles ((c :: children.labels).map (·.id)))) := by
        refine follows_discard hsiblings fun d hd hmem => ?_
        exact hapart _ hmem _ (List.mem_map.mpr ⟨d, hd, rfl⟩) rfl
      rw [Forest.roots, List.map_cons, placeAll, place_eq hfirst hidsc, ih hbeside hidss,
        discard_discard, ← List.map_append]
      simp

end Bundle

end Discussion
