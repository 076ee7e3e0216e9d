import Discussion.Proofs.Forest.Finding
import Discussion.Proofs.Plan.Decision
import Discussion.Proofs.Thread.Accounting

/-!
# Finding a comment and its decision

A thread and a plan are asked for a comment by its number, which may be the number of several
comments.  Both answer with the first one in preorder.  A plan has the shape of its thread and
tells at every address of the comment there, so that the comment and the decision are found at the
same address, or neither of them is found.
-/

namespace Discussion

/-- Whether a thread answers from its preorder: it is read in preorder, its trees tell how many
comments they hold, and the first comment with a number is the one that is found. -/
structure Thread.AnswersInPreorder (thread : Thread) : Prop
    extends Forest.IsReadInPreorder thread where
  tree_count : ∀ tree ∈ thread.preorder, tree.count = tree.preorder.length
  find : ∀ id, IsFirst (fun tree => tree.label.id = id) thread.preorder
    (thread.find? fun c => c.id == id)

/-- Whether a plan answers from its preorder: it is read in preorder, the first decision about a
comment is the one that is found, and what is shown is counted over all decisions. -/
structure Plan.AnswersInPreorder (plan : Plan) : Prop
    extends Forest.IsReadInPreorder plan where
  find : ∀ id, IsFirst (fun node => node.label.comment = id) plan.preorder (plan.find? id)
  disposition : ∀ id, plan.disposition? id =
    (plan.preorder.find? fun node => node.label.comment = id).map fun node =>
      node.label.disposition
  rendered : plan.renderedCount =
    (plan.preorder.filter fun node => node.label.disposition ≠ .omit).length
  empty : plan.showsNothing = true ↔ ∀ node ∈ plan.preorder, node.label.disposition = .omit

/-- Whether a comment and the decision about it are found at the same address, where both are the
first with their number, or neither of them is found. -/
inductive FoundAlike (thread : Thread) (plan : Plan) (id : CommentId) : Prop
  | missing (hthread : thread.find? (fun c => c.id == id) = none) (hplan : plan.find? id = none)
  | found (address : List Nat) (tree : Tree Comment) (node : Tree Decision)
      (hthread : thread.find? (fun c => c.id == id) = some tree)
      (hplan : plan.find? id = some node)
      (htree : thread.IsFirstAt (fun c => c.id = id) address tree)
      (hnode : plan.IsFirstAt (fun d => d.comment = id) address node)

/-! ## Threads and plans by themselves -/

theorem Tree.count_eq_length_preorder {α : Type} (tree : Tree α) :
    tree.count = tree.preorder.length := by
  rw [count, Forest.count, Forest.subtrees_eq_preorder, preorder, List.length_cons, Nat.add_comm]

theorem Thread.answersInPreorder (thread : Thread) : thread.AnswersInPreorder where
  toIsReadInPreorder := Forest.isReadInPreorder thread
  tree_count tree _ := tree.count_eq_length_preorder
  find id := by simpa using (Forest.isReadInPreorder thread).first fun c => c.id == id

namespace Plan

theorem find?_eq_find?_preorder (plan : Plan) (id : CommentId) :
    plan.find? id = plan.preorder.find? fun node => node.label.comment = id := by
  rw [find?, Forest.find?, Forest.subtrees_eq_preorder]
  rfl

theorem renderedCount_eq (plan : Plan) :
    plan.renderedCount =
      (plan.preorder.filter fun node => node.label.disposition ≠ .omit).length := by
  rw [renderedCount, Forest.labels, List.countP_map, Forest.subtrees_eq_preorder,
    List.countP_eq_length_filter]
  congr 2
  funext node
  rw [Bool.eq_iff_iff]
  simp [Decision.isRendered_iff]

theorem showsNothing_iff (plan : Plan) :
    plan.showsNothing = true ↔ ∀ node ∈ plan.preorder, node.label.disposition = .omit := by
  rw [showsNothing, beq_iff_eq, renderedCount_eq, List.length_eq_zero_iff,
    List.filter_eq_nil_iff]
  simp

theorem answersInPreorder (plan : Plan) : plan.AnswersInPreorder where
  toIsReadInPreorder := Forest.isReadInPreorder plan
  find id := by simpa [find?] using (Forest.isReadInPreorder plan).first fun d => d.comment == id
  disposition id := by rw [disposition?, find?_eq_find?_preorder]
  rendered := plan.renderedCount_eq
  empty := plan.showsNothing_iff

end Plan

/-! ## A thread and its plan -/

namespace Request

theorem comment_planned (request : Request) (above : List Comment) (tree : Tree Comment) :
    (request.planned above tree).label.comment = tree.label.id := by
  rw [label_planned, comment_decide]

theorem isFirstAt_plan
    (request : Request) {thread : Thread} {id : CommentId} {address : List Nat}
    {tree : Tree Comment} (h : thread.IsFirstAt (fun c => c.id = id) address tree) :
    (request.plan thread).IsFirstAt (fun d => d.comment = id) address
      (request.planned (thread.above address) tree) where
  treeAt?_eq := by rw [treeAt?_plan, h.treeAt?_eq, Option.map_some]
  holds := by rw [comment_planned, h.holds]
  none_before earlier node hlt hnode := by
    rw [treeAt?_plan, Option.map_eq_some_iff] at hnode
    obtain ⟨other, hother, rfl⟩ := hnode
    rw [comment_planned]
    exact h.none_before earlier other hlt hother

theorem plan_foundAlike (request : Request) (thread : Thread) (id : CommentId) :
    FoundAlike thread (request.plan thread) id := by
  cases hfind : thread.find? fun c => c.id == id with
  | none =>
      refine .missing hfind (Forest.find?_eq_none_iff.mpr fun address node hnode => ?_)
      rw [treeAt?_plan, Option.map_eq_some_iff] at hnode
      obtain ⟨tree, htree, rfl⟩ := hnode
      rw [comment_planned]
      exact Forest.find?_eq_none_iff.mp hfind address tree htree
  | some tree =>
      obtain ⟨address, hfirst⟩ := Forest.find?_eq_some_iff.mp hfind
      have htree : thread.IsFirstAt (fun c => c.id = id) address tree := by simpa using hfirst
      have hnode := request.isFirstAt_plan htree
      refine .found address tree _ hfind (Forest.find?_eq_some_iff.mpr ⟨address, ?_⟩) htree hnode
      simpa using hnode

end Request

/-- Threads and plans answer from their preorder, and a comment is found in a thread where the
decision about it is found in the plan. -/
theorem threads_and_plans_answerInPreorder :
    (∀ thread : Thread, thread.AnswersInPreorder) ∧ (∀ plan : Plan, plan.AnswersInPreorder) ∧
      ∀ (request : Request) (thread : Thread) (id : CommentId),
        FoundAlike thread (request.walk thread).value id :=
  ⟨Thread.answersInPreorder, Plan.answersInPreorder, Request.plan_foundAlike⟩

end Discussion
