import Discussion.Proofs.Thread.Subtree

/-!
# Two ways to a comment

A comment may be looked up in the thread of a list, or a subtree of the list may be
built from it.  Wherever it is found in the thread, both give the same tree: no comment
of the thread stands below itself, so making it a founder takes no reply away from what
stands below it.  A thread that has lost no root misses only comments whose parents lead
round in a circle.
-/

namespace Discussion

/-- Whether the thread and the subtrees of a list agree about a number: what is found
in the thread is the subtree, and what is missed in a thread with all its roots is a
comment whose line of parents never ends. -/
structure AgreesOn (comments : List Comment) (order : Order) (limit : UInt64)
    (thread : Thread) (id : CommentId) : Prop where
  found : ∀ tree, thread.find? (fun c => c.id == id) = some tree →
    (Thread.buildSubtree comments id order).value = .ok (Forest.ofTrees [tree])
  missed : (founders comments).length ≤ limit.toNat → (∃ c ∈ comments, c.id = id) →
    thread.find? (fun c => c.id == id) = none →
      ∃ first, first? comments id = some first ∧ ¬IsAnchored comments first ∧
        RunsIntoCircle (resolvedParent? comments) first

theorem runsIntoCircle_of_not_isAnchored
    {comments : List Comment} {c : Comment} (hc : c ∈ firsts comments)
    (h : ¬IsAnchored comments c) :
    RunsIntoCircle (resolvedParent? comments) c := by
  apply runsIntoCircle_of_never_ends (fun a _ b hab => mem_firsts_of_resolvedParent? hab) hc
  intro ancestor hline hfounder
  exact h ⟨ancestor, hline, hfounder⟩

namespace Thread

/-- Below a comment that does not stand below itself, nobody loses a reply when it is
made a founder. -/
theorem follows_repliesBut
    {roster : Roster} {order : Order} {root : Comment} {children : Thread}
    (h : (Forest.node root children .nil).Follows (roster.sortedReplies order))
    (hroot : root.id ∉ children.labels.map (·.id)) :
    (Forest.node root children .nil).Follows (roster.repliesBut root.id order) := by
  intro tree htree
  have hreplies := h tree htree
  rw [hreplies, Roster.sortedReplies, Roster.repliesBut, List.filter_eq_self.mpr]
  intro reply hreply
  have hbelow : reply ∈ children.labels := by
    apply Forest.map_label_children_subset htree
    rw [hreplies]
    exact Order.mem_sort.mpr hreply
  have hid : reply.id ≠ root.id := by
    intro hid
    exact hroot (hid ▸ List.mem_map.mpr ⟨reply, hbelow, rfl⟩)
  simpa using hid

/-- The subtree that starts at a comment of the thread is the tree of that comment. -/
theorem subtreeOfRoster_eq_of_mem_subtrees
    {roster : Roster} {comments : List Comment} (h : roster.Knows comments) {order : Order}
    {tree : Tree Comment} (htree : tree ∈ (ofRoster roster order).subtrees) :
    subtreeOfRoster roster tree.label order = Forest.ofTrees [tree] := by
  have hmem : tree.label ∈ firsts comments :=
    ((mem_labels_ofRoster_iff h).mp (Forest.mem_labels_of_mem_subtrees htree)).1
  have hids : ((tree.label :: tree.children.labels).map (·.id)).Nodup :=
    (holdsWhole_ofRoster h order).ids_nodup.sublist
      ((Forest.sublist_labels_of_mem_subtrees htree).map _)
  have hfollows := follows_repliesBut ((follows_ofRoster h order).of_mem_subtrees htree)
    (List.nodup_cons.mp hids).1
  rw [Forest.ofTrees_cons, Forest.ofTrees_nil]
  apply Forest.eq_of_follows (follows_subtreeOfRoster h hmem order) hfollows
  rw [roots_subtreeOfRoster h hmem order]
  simp [Forest.roots]

/-- Looking a comment up in the thread and building the subtree from it agree, for every
number and every limit that is not refused. -/
theorem build_agreesOn
    (comments : List Comment) (order : Order) {limit : UInt64} (hlimit : limit ≠ 0)
    (id : CommentId) :
    ∃ thread, (build comments limit order).value = .ok thread ∧
      AgreesOn comments order limit thread id := by
  have hknows := Roster.knows_ofList comments
  refine ⟨(ofRoster (Roster.ofList comments) order).take limit.toNat,
    value_build hlimit comments order, ?_, ?_⟩
  · intro tree hfind
    have htree := Forest.mem_subtrees_of_mem_take (List.mem_of_find?_eq_some hfind)
    obtain rfl : tree.label.id = id := by simpa using List.find?_some hfind
    have hmem : tree.label ∈ firsts comments :=
      ((mem_labels_ofRoster_iff hknows).mp (Forest.mem_labels_of_mem_subtrees htree)).1
    rw [value_buildSubtree, mem_firsts_iff.mp hmem]
    exact congrArg Except.ok (subtreeOfRoster_eq_of_mem_subtrees hknows htree)
  · rintro hroots ⟨c, hc, hid⟩ hfind
    obtain ⟨first, hfirst⟩ : ∃ first, first? comments id = some first := by
      rw [← Option.isSome_iff_exists, first?, List.find?_isSome]
      exact ⟨c, hc, by simpa using hid⟩
    have hmem := mem_firsts_of_first? hfirst
    have hloose : ¬IsAnchored comments first := by
      intro hanchored
      have hlabel : first ∈ (ofRoster (Roster.ofList comments) order).labels :=
        (mem_labels_ofRoster_iff hknows).mpr ⟨hmem, hanchored⟩
      obtain ⟨tree, htree, hfirsttree⟩ := List.mem_map.mp hlabel
      rw [Forest.take_eq_self (by rw [rootCount_ofRoster hknows]; exact hroots)] at hfind
      have hother : tree.label.id ≠ id := by
        simpa using List.find?_eq_none.mp hfind tree htree
      exact hother (by rw [hfirsttree, id_of_first? hfirst])
    exact ⟨first, hfirst, hloose, runsIntoCircle_of_not_isAnchored hmem hloose⟩

theorem build_agreesOn_besideCircle :
    (1 : UInt64) ≠ 0 ∧ ∃ thread, (build besideCircle 1 .latest).value = .ok thread ∧
      AgreesOn besideCircle .latest 1 thread ⟨2⟩ :=
  ⟨by decide, build_agreesOn besideCircle .latest (by decide) ⟨2⟩⟩

end Thread

end Discussion
