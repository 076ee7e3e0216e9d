import Mathlib.Data.List.Induction
import Mathlib.Data.List.Nodup
import Discussion.Thread.Roster

/-!
# Parents among the comments of a list

A list of comments may repeat numbers, and a comment may name any number as its
parent.  What counts is the first comment of each number, and as a parent only
another first comment of the same commentable.  Both are said here about the list
itself.  A roster, which is filled comment by comment through hash maps, knows the
same.
-/

namespace Discussion

/-- The first comment with a number. -/
def first? (comments : List Comment) (id : CommentId) : Option Comment :=
  comments.find? fun c => c.id == id

/-- The first comment of each number, in their order. -/
def firsts : List Comment → List Comment
  | [] => []
  | c :: rest => c :: (firsts rest).filter fun d => d.id != c.id

/-- The parent that counts: the first comment of the number that the comment names,
if it is another comment of the same commentable. -/
def resolvedParent? (comments : List Comment) (c : Comment) : Option Comment :=
  (c.parent.bind (first? comments)).filter fun parent =>
    parent.id ≠ c.id ∧ parent.commentable = c.commentable

/-- The first comments without a parent that counts. -/
def founders (comments : List Comment) : List Comment :=
  (firsts comments).filter fun c => resolvedParent? comments c = none

/-! ## First comments -/

theorem first?_cons (c : Comment) (rest : List Comment) (id : CommentId) :
    first? (c :: rest) id = if c.id = id then some c else first? rest id := by
  by_cases hid : c.id = id <;> simp [first?, hid]

theorem first?_concat (seen : List Comment) (c : Comment) (id : CommentId) :
    first? (seen ++ [c]) id =
      (first? seen id).or (if c.id = id then some c else none) := by
  by_cases hid : c.id = id <;> simp [first?, hid]

theorem id_of_first?
    {comments : List Comment} {id : CommentId} {c : Comment}
    (h : first? comments id = some c) :
    c.id = id := by
  simpa using List.find?_some h

theorem mem_firsts_iff {comments : List Comment} {c : Comment} :
    c ∈ firsts comments ↔ first? comments c.id = some c := by
  induction comments with
  | nil => simp [firsts, first?]
  | cons a rest ih =>
      rw [firsts, first?_cons, List.mem_cons, List.mem_filter, ih]
      by_cases hid : a.id = c.id
      · simp [hid, eq_comm]
      · have hne : c ≠ a := by
          rintro rfl
          exact hid rfl
        have hid' : c.id ≠ a.id := fun h => hid h.symm
        simp [hid, hid', hne]

theorem mem_firsts_of_first?
    {comments : List Comment} {id : CommentId} {c : Comment}
    (h : first? comments id = some c) :
    c ∈ firsts comments := by
  rw [mem_firsts_iff, id_of_first? h]
  exact h

theorem eq_of_mem_firsts
    {comments : List Comment} {a b : Comment}
    (ha : a ∈ firsts comments) (hb : b ∈ firsts comments) (hid : a.id = b.id) :
    a = b := by
  rw [mem_firsts_iff] at ha hb
  rw [hid, hb] at ha
  exact (Option.some.inj ha).symm

theorem nodup_ids_firsts (comments : List Comment) :
    ((firsts comments).map (·.id)).Nodup := by
  induction comments with
  | nil => simp [firsts]
  | cons a rest ih =>
      rw [firsts, List.map_cons, List.nodup_cons]
      constructor
      · simp [List.mem_map]
      · exact ih.sublist (List.filter_sublist.map _)

/-- Where no number is repeated, every comment is the first of its number. -/
theorem firsts_eq_self {comments : List Comment} (hids : (comments.map (·.id)).Nodup) :
    firsts comments = comments := by
  induction comments with
  | nil => rfl
  | cons c rest ih =>
      rw [List.map_cons, List.nodup_cons] at hids
      rw [firsts, ih hids.2, List.filter_eq_self.mpr]
      intro d hd
      have hid : d.id ≠ c.id := fun hid => hids.1 (hid ▸ List.mem_map.mpr ⟨d, hd, rfl⟩)
      simpa using hid

/-- Where no number is repeated, the order of the comments does not matter. -/
theorem first?_eq_some_iff
    {comments : List Comment} (hids : (comments.map (·.id)).Nodup) {id : CommentId}
    {c : Comment} :
    first? comments id = some c ↔ c ∈ comments ∧ c.id = id := by
  constructor
  · intro h
    exact ⟨List.mem_of_find?_eq_some h, id_of_first? h⟩
  · rintro ⟨hc, rfl⟩
    rw [← mem_firsts_iff, firsts_eq_self hids]
    exact hc

theorem firsts_concat (seen : List Comment) (c : Comment) :
    firsts (seen ++ [c]) =
      if (first? seen c.id).isSome then firsts seen else firsts seen ++ [c] := by
  induction seen with
  | nil => simp [firsts, first?]
  | cons a rest ih =>
      rw [List.cons_append, firsts, firsts, ih, first?_cons]
      by_cases hid : a.id = c.id
      · -- The comment that came too late is dropped behind the first one.
        have hlate : (c.id != a.id) = false := by simp [hid]
        cases (first? rest c.id).isSome <;> simp [hid]
      · have hid' : (c.id != a.id) = true := by simpa using fun h => hid h.symm
        cases first? rest c.id <;> simp [hid, hid']

/-! ## Parents that count -/

theorem resolvedParent?_eq_some_iff {comments : List Comment} {c parent : Comment} :
    resolvedParent? comments c = some parent ↔
      c.parent = some parent.id ∧ parent ∈ firsts comments ∧ parent.id ≠ c.id ∧
        parent.commentable = c.commentable := by
  rw [resolvedParent?, Option.filter_eq_some_iff, Option.bind_eq_some_iff]
  constructor
  · rintro ⟨⟨id, hnamed, hfirst⟩, hcounts⟩
    have hid := id_of_first? hfirst
    refine ⟨by rw [hnamed, hid], mem_firsts_of_first? hfirst, ?_⟩
    simpa using hcounts
  · rintro ⟨hnamed, hfirst, hcounts⟩
    refine ⟨⟨parent.id, hnamed, mem_firsts_iff.mp hfirst⟩, ?_⟩
    simpa using hcounts

theorem mem_firsts_of_resolvedParent?
    {comments : List Comment} {c parent : Comment}
    (h : resolvedParent? comments c = some parent) :
    parent ∈ firsts comments :=
  (resolvedParent?_eq_some_iff.mp h).2.1

/-! ## What a roster knows -/

namespace Roster

/-- Whether a roster knows the first comments of a list, and nothing else. -/
structure Knows (roster : Roster) (seen : List Comment) : Prop where
  find?_eq : ∀ id, roster.find? id = first? seen id
  members_eq : roster.members.toList = firsts seen

theorem Knows.add {roster : Roster} {seen : List Comment} (h : roster.Knows seen) (c : Comment) :
    (roster.add c).Knows (seen ++ [c]) := by
  have hknown : roster.known.contains c.id = (first? seen c.id).isSome := by
    rw [Std.HashMap.contains_eq_isSome_getElem?]
    exact congrArg Option.isSome (h.find?_eq c.id)
  cases hseen : first? seen c.id with
  | some d =>
      have hadd : roster.add c = { roster with repeated := roster.repeated.push c.id } := by
        simp [Roster.add, hknown, hseen]
      constructor
      · intro id
        have hfind : (roster.add c).find? id = first? seen id := by
          rw [hadd]
          exact h.find?_eq id
        rw [hfind, first?_concat]
        by_cases hid : c.id = id
        · subst hid
          simp [hseen]
        · simp [hid]
      · rw [hadd, firsts_concat]
        simpa [hseen] using h.members_eq
  | none =>
      have hadd : roster.add c = { roster with
          known := roster.known.insert c.id c, members := roster.members.push c } := by
        simp [Roster.add, hknown, hseen]
      constructor
      · intro id
        have hfind : (roster.add c).find? id = if c.id = id then some c else first? seen id := by
          rw [hadd, find?, Std.HashMap.getElem?_insert, ← h.find?_eq id]
          simp [find?]
        rw [hfind, first?_concat]
        by_cases hid : c.id = id
        · subst hid
          simp [hseen]
        · simp [hid]
      · rw [hadd, firsts_concat]
        simpa [hseen] using h.members_eq

theorem knows_ofList (comments : List Comment) : (ofList comments).Knows comments := by
  induction comments using List.reverseRecOn with
  | nil =>
      constructor
      · intro id
        simp [ofList, empty, find?, first?]
      · simp [ofList, empty, firsts]
  | append_singleton seen c ih =>
      rw [ofList, List.foldl_concat]
      exact ih.add c

/-- Every comment of a list is a member or came too late. -/
theorem size_ofList (comments : List Comment) :
    (ofList comments).members.size + (ofList comments).repeated.size = comments.length := by
  induction comments using List.reverseRecOn with
  | nil => rfl
  | append_singleton seen c ih =>
      rw [ofList, List.foldl_concat, ← ofList, Roster.add, List.length_append]
      split
      · simp only [Array.size_push, List.length_singleton]
        omega
      · simp only [Array.size_push, List.length_singleton]
        omega

theorem getD_replies (roster : Roster) (id : CommentId) :
    roster.replies.getD id [] =
      roster.members.toList.filter fun c => roster.parent? c = some id := by
  unfold replies
  induction roster.members.toList with
  | nil => simp
  | cons c rest ih =>
      rw [List.foldr_cons, List.filter_cons]
      cases hparent : roster.parent? c with
      | none => simpa using ih
      | some parent =>
          simp only [Std.HashMap.getD_insert]
          by_cases hid : parent = id
          · subst hid
            simp [ih]
          · simp [hid, ih]

namespace Knows

variable {roster : Roster} {comments : List Comment}

theorem parent?_eq (h : roster.Knows comments) (c : Comment) :
    roster.parent? c = (resolvedParent? comments c).map (·.id) := by
  unfold parent? resolvedParent?
  cases hnamed : c.parent with
  | none => simp
  | some id =>
      simp only [h.find?_eq, Option.bind_some]
      cases hfirst : first? comments id with
      | none => simp
      | some parent =>
          have hid := id_of_first? hfirst
          by_cases hself : parent.id = c.id <;>
            by_cases hplace : parent.commentable = c.commentable <;>
              simp [isParentOf, Option.filter, hself, hplace, ← hid]

theorem mem_replies_iff (h : roster.Knows comments) {c parent : Comment}
    (hparent : parent ∈ firsts comments) :
    c ∈ roster.replies.getD parent.id [] ↔
      c ∈ firsts comments ∧ resolvedParent? comments c = some parent := by
  rw [getD_replies, List.mem_filter, h.members_eq, h.parent?_eq]
  refine and_congr_right fun _ => ?_
  rw [decide_eq_true_iff, Option.map_eq_some_iff]
  constructor
  · rintro ⟨other, hother, hid⟩
    rw [hother, eq_of_mem_firsts (mem_firsts_of_resolvedParent? hother) hparent hid]
  · intro hc
    exact ⟨parent, hc, rfl⟩

theorem roots_eq (h : roster.Knows comments) : roster.roots = founders comments := by
  rw [roots, founders, h.members_eq]
  refine List.filter_congr fun c _ => ?_
  rw [h.parent?_eq]
  cases resolvedParent? comments c <;> simp

end Knows

end Roster

end Discussion
