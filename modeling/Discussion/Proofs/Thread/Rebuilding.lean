import Discussion.Proofs.Thread.Ranking

/-!
# Building again from what was built

A thread is closed: with every comment it holds the parent that counts, if there is one, and
all the replies.  So the comments that were left out of it, because they came too late, hang
in a circle or stand below a root that was cut off, are nobody's parent or reply in it, and
building from its comments alone settles every parent in the same way.
-/

namespace Discussion

/-- Whether a list picks first comments of another list, each once, and with every comment its
parent that counts and the replies to it. -/
structure IsClosedPart (part comments : List Comment) : Prop where
  ids_nodup : (part.map (·.id)).Nodup
  mem_firsts : ∀ c ∈ part, c ∈ firsts comments
  parent_mem : ∀ c ∈ part, ∀ parent, resolvedParent? comments c = some parent → parent ∈ part
  reply_mem : ∀ parent ∈ part, ∀ c ∈ firsts comments,
    resolvedParent? comments c = some parent → c ∈ part

namespace IsClosedPart

variable {part comments : List Comment}

/-- Every comment of the part has the same parent in the part alone. -/
theorem resolvedParent?_eq (h : IsClosedPart part comments) {c : Comment} (hc : c ∈ part) :
    resolvedParent? part c = resolvedParent? comments c := by
  apply Option.ext
  intro parent
  rw [resolvedParent?_eq_some_iff, firsts_eq_self h.ids_nodup]
  constructor
  · rintro ⟨hnamed, hparent, hcounts⟩
    exact resolvedParent?_eq_some_iff.mpr ⟨hnamed, h.mem_firsts parent hparent, hcounts⟩
  · intro hresolved
    obtain ⟨hnamed, _, hcounts⟩ := resolvedParent?_eq_some_iff.mp hresolved
    exact ⟨hnamed, h.parent_mem c hc parent hresolved, hcounts⟩

theorem mem_founders_iff (h : IsClosedPart part comments) {c : Comment} :
    c ∈ founders part ↔ c ∈ part ∧ c ∈ founders comments := by
  rw [Discussion.mem_founders_iff, Discussion.mem_founders_iff, firsts_eq_self h.ids_nodup]
  refine and_congr_right fun hc => ?_
  rw [h.resolvedParent?_eq hc]
  exact ⟨fun hnone => ⟨h.mem_firsts c hc, hnone⟩, And.right⟩

variable {roster other : Roster}

/-- Every comment of the part has the same sorted replies in the part alone. -/
theorem sortedReplies_eq
    (h : IsClosedPart part comments) (hroster : roster.Knows comments)
    (hother : other.Knows part) (order : Order) {parent : Comment} (hparent : parent ∈ part) :
    roster.sortedReplies order parent = other.sortedReplies order parent := by
  have hfirst : parent ∈ firsts part := by rwa [firsts_eq_self h.ids_nodup]
  refine Order.sort_eq_of_perm ?_ (hroster.nodup_ids_replies parent.id)
  rw [List.perm_ext_iff_of_nodup (hroster.nodup_ids_replies parent.id).of_map
    (hother.nodup_ids_replies parent.id).of_map]
  intro c
  rw [hroster.mem_replies_iff (h.mem_firsts parent hparent), hother.mem_replies_iff hfirst,
    firsts_eq_self h.ids_nodup]
  constructor
  · rintro ⟨hc, hresolved⟩
    have hmem := h.reply_mem parent hparent c hc hresolved
    exact ⟨hmem, (h.resolvedParent?_eq hmem).trans hresolved⟩
  · rintro ⟨hmem, hresolved⟩
    exact ⟨h.mem_firsts c hmem, (h.resolvedParent?_eq hmem).symm.trans hresolved⟩

/-- A thread of comments of the part, with the founders of the part as its roots, is the whole
thread of the part. -/
theorem ofRoster_eq
    (h : IsClosedPart part comments) (hroster : roster.Knows comments)
    (hother : other.Knows part) {order : Order} {thread : Thread}
    (hfollows : thread.Follows (roster.sortedReplies order))
    (hpart : ∀ c ∈ thread.labels, c ∈ part)
    (hroots : thread.roots.map (·.label) = order.sort (founders part)) :
    Thread.ofRoster other order = thread := by
  apply Forest.eq_of_follows (Thread.follows_ofRoster hother order)
  · exact hfollows.congr fun c hc => h.sortedReplies_eq hroster hother order (hpart c hc)
  · rw [Thread.roots_ofRoster hother, hroots]

end IsClosedPart

/-- Whether building again from the comments of a thread gives the thread, and if it has all
its roots, whatever building from the former comments gives in any order up to any limit. -/
structure Thread.IsRebuilt (comments : List Comment) (order : Order) (limit : UInt64)
    (thread : Thread) : Prop where
  again : (build thread.labels limit order).value = .ok thread
  otherwise : (founders comments).length ≤ thread.rootCount →
    ∀ (another : Order) (bound : UInt64), bound ≠ 0 →
      ∃ rebuilt, (build comments bound another).value = .ok rebuilt ∧
        (build thread.labels bound another).value = .ok rebuilt

namespace Thread

variable {roster : Roster} {comments : List Comment}

/-- The roots of a thread are the comments in it that have no parent that counts. -/
theorem mem_roots_take_iff
    (h : roster.Knows comments) (order : Order) (n : Nat) {c : Comment} :
    c ∈ ((ofRoster roster order).take n).roots.map (·.label) ↔
      c ∈ ((ofRoster roster order).take n).labels ∧ c ∈ founders comments := by
  constructor
  · intro hc
    refine ⟨Forest.map_label_roots_subset_labels _ hc, ?_⟩
    rw [Forest.roots_take, List.map_take, roots_ofRoster h] at hc
    exact Order.mem_sort.mp (List.mem_of_mem_take hc)
  · rintro ⟨hc, hfounder⟩
    rcases Forest.mem_roots_or_children_of_mem_labels hc with hroot | ⟨tree, htree, hchild⟩
    · exact hroot
    · -- A founder is nobody's reply, so it does not stand below another comment.
      have hwhole := Forest.mem_subtrees_of_mem_take htree
      obtain ⟨address, haddress⟩ := Forest.mem_subtrees_iff.mp hwhole
      have hparent := (((holdsWhole_ofRoster h order).mem_children address tree haddress c).mp
        hchild).2
      rw [(mem_founders_iff.mp hfounder).2] at hparent
      cases hparent

theorem isClosedPart_labels_take (h : roster.Knows comments) (order : Order) (n : Nat) :
    IsClosedPart ((ofRoster roster order).take n).labels comments := by
  have hfollows := (follows_ofRoster h order).take n
  have hmem : ∀ c ∈ ((ofRoster roster order).take n).labels, c ∈ firsts comments := by
    intro c hc
    exact h.mem_firsts_of_mem_ofRoster (Forest.mem_labels_of_mem_take hc)
  constructor
  · exact (holdsWhole_ofRoster h order).ids_nodup.sublist
      ((Forest.sublist_labels_take n _).map _)
  · exact hmem
  · intro c hc parent hparent
    rcases Forest.mem_roots_or_children_of_mem_labels hc with hroot | ⟨tree, htree, hchild⟩
    · have hfounder := ((mem_roots_take_iff h order n).mp hroot).2
      rw [(mem_founders_iff.mp hfounder).2] at hparent
      cases hparent
    · have hlabel := Forest.mem_labels_of_mem_subtrees htree
      rw [hfollows tree htree, Roster.sortedReplies, Order.mem_sort,
        h.mem_replies_iff (hmem _ hlabel)] at hchild
      obtain rfl := Option.some.inj (hchild.2.symm.trans hparent)
      exact hlabel
  · intro parent hparent c hc hresolved
    apply hfollows.mem_labels_of_mem_offspring hparent
    rw [Roster.sortedReplies, Order.mem_sort, h.mem_replies_iff (hmem _ hparent)]
    exact ⟨hc, hresolved⟩

theorem isClosedPart_labels (h : roster.Knows comments) (order : Order) :
    IsClosedPart (ofRoster roster order).labels comments := by
  have hclosed := isClosedPart_labels_take h order (ofRoster roster order).rootCount
  rwa [Forest.take_eq_self (Nat.le_refl _)] at hclosed

/-- The whole thread of the comments of a thread is that thread. -/
theorem ofRoster_labels_take
    (h : roster.Knows comments) (order : Order) (n : Nat) {other : Roster}
    (hother : other.Knows ((ofRoster roster order).take n).labels) :
    ofRoster other order = (ofRoster roster order).take n := by
  have hpart := isClosedPart_labels_take h order n
  have hranked := ((isRanked_ofRoster h order).take n).roots
  refine hpart.ofRoster_eq h hother ((follows_ofRoster h order).take n) (fun c hc => hc) ?_
  refine Order.eq_sort_of_pairwise ?_ ?_ (hranked.imp Order.le_of_compare_eq_lt)
  · rw [List.perm_ext_iff_of_nodup]
    · intro c
      rw [mem_roots_take_iff h, hpart.mem_founders_iff]
    · exact hranked.imp fun hlt => Order.ne_of_compare_eq_lt hlt
    · exact (nodup_ids_founders _).of_map
  · exact nodup_ids_founders _

/-- The comments of a thread with all its roots have the same thread in every order. -/
theorem ofRoster_labels
    (h : roster.Knows comments) (order another : Order) {other : Roster}
    (hother : other.Knows (ofRoster roster order).labels) :
    ofRoster other another = ofRoster roster another := by
  have hpart := isClosedPart_labels h order
  refine hpart.ofRoster_eq h hother (follows_ofRoster h another) ?_ ?_
  · intro c hc
    rw [mem_labels_ofRoster_iff h] at hc ⊢
    exact hc
  · rw [roots_ofRoster h]
    refine Order.sort_eq_of_perm ?_ (nodup_ids_founders comments)
    rw [List.perm_ext_iff_of_nodup (nodup_ids_founders _).of_map (nodup_ids_founders _).of_map]
    intro c
    rw [hpart.mem_founders_iff, mem_labels_ofRoster_iff h]
    constructor
    · intro hc
      have hfounder := mem_founders_iff.mp hc
      exact ⟨⟨hfounder.1, c, .refl, hfounder.2⟩, hc⟩
    · exact And.right

/-- Reading the comments off a thread undoes building it. -/
theorem build_isRebuilt
    (comments : List Comment) (order : Order) {limit : UInt64} (hlimit : limit ≠ 0) :
    ∃ thread, (build comments limit order).value = .ok thread ∧
      IsRebuilt comments order limit thread := by
  have hknows := Roster.knows_ofList comments
  refine ⟨_, value_build hlimit comments order, ?_, ?_⟩
  · have hcount := (keepsFirstFounders_take hknows order limit).count
    rw [value_build hlimit, ofRoster_labels_take hknows order _ (Roster.knows_ofList _),
      Forest.take_eq_self]
    omega
  · intro hroots another bound hbound
    have hcount := (keepsFirstFounders_take hknows order limit).count
    have hwhole : (ofRoster (Roster.ofList comments) order).take limit.toNat =
        ofRoster (Roster.ofList comments) order := by
      apply Forest.take_eq_self
      rw [rootCount_ofRoster hknows]
      omega
    refine ⟨_, value_build hbound comments another, ?_⟩
    rw [hwhole, value_build hbound,
      ofRoster_labels hknows order another (Roster.knows_ofList _)]

/-- Two comments in a circle and one that came too late are lost, and nobody misses them. -/
theorem build_isRebuilt_besideCircle :
    (2 : UInt64) ≠ 0 ∧ ∃ thread, (build besideCircle 2 .latest).value = .ok thread ∧
      IsRebuilt besideCircle .latest 2 thread ∧
      ∃ rebuilt, (build besideCircle 1 .oldest).value = .ok rebuilt ∧
        (build thread.labels 1 .oldest).value = .ok rebuilt := by
  have hlimit : (2 : UInt64) ≠ 0 := by decide
  have hfounders : (founders besideCircle).length = 2 := by decide
  obtain ⟨thread, hbuild, hrebuilt⟩ := build_isRebuilt besideCircle .latest hlimit
  have hroots : (founders besideCircle).length ≤ thread.rootCount := by
    obtain ⟨-, rfl⟩ := value_build_eq_ok_iff.mp hbuild
    rw [(keepsFirstFounders_take (Roster.knows_ofList _) .latest 2).count, hfounders]
    decide
  exact ⟨hlimit, thread, hbuild, hrebuilt, hrebuilt.otherwise hroots .oldest 1 (by decide)⟩

end Thread

end Discussion
