import Discussion.Proofs.Forest.Pruning
import Discussion.Proofs.Plan.Presence

/-!
# What omitted comments leave behind

A comment that is left out has no influence on what is shown.  Whatever stands below it
is left out as well, and a comment that is shown looks at no reply but those that are
shown.  So a thread without the comments that its plan leaves out is planned as before,
and nothing is left out of the new plan.
-/

namespace Discussion

namespace Request

/-- A decision depends on the plan for the replies through those that are shown. -/
theorem decide_prune
    (request : Request) (here : Position) (c : Comment) (replies : Plan) :
    request.decide here c (replies.prune Decision.isRendered) = request.decide here c replies :=
  decide_congr (Forest.anyRoot_prune Decision.isRendered replies)

theorem planFrom_pruneAlong (request : Request) (place : Position) (thread : Thread) :
    request.planFrom place
        (Forest.pruneAlong Decision.isRendered (request.planFrom place thread) thread) =
      (request.planFrom place thread).prune Decision.isRendered := by
  induction thread generalizing place with
  | nil => rfl
  | node c replies siblings ihc ihs =>
      have hreplies := ihc (request.descend place c)
      rw [planFrom_node, Forest.prune, Forest.pruneAlong]
      split
      · rw [planFrom_node, hreplies, decide_prune, ihs]
      · exact ihs place

/-- Nothing is shown below a comment that is left out. -/
theorem failsDownward_plan (request : Request) (thread : Thread) :
    (request.plan thread).FailsDownward Decision.isRendered := by
  intro planned hplanned homitted below hbelow
  obtain ⟨address, haddress⟩ := Forest.mem_subtrees_iff.mp hplanned
  obtain ⟨further, tree, htree, rfl⟩ := Forest.mem_labels_iff.mp hbelow
  by_contra hrendered
  have hshown : (request.plan thread).IsShownAt (address ++ further) := by
    refine ⟨tree, ?_, Decision.isRendered_iff.mp (by simpa using hrendered)⟩
    rw [Forest.treeAt?_append_of_eq_some haddress,
      Forest.at?_eq_treeAt? planned (Forest.ne_nil_of_treeAt? htree), htree]
  obtain ⟨planned', hplanned', hdisposition⟩ :=
    isShownAt_of_append (Forest.ne_nil_of_treeAt? haddress) hshown
  obtain rfl := Option.some.inj (haddress.symm.trans hplanned')
  have hself : planned.label.isRendered = true := Decision.isRendered_iff.mpr hdisposition
  rw [homitted] at hself
  cases hself

/-- Walking a thread without the comments that its plan leaves out gives the same plan
without those it leaves out.  That plan has lost no decision that shows anything, and it
leaves nothing out. -/
theorem walk_pruneAlong (request : Request) (thread : Thread) :
    let plan := (request.walk thread).value
    let shown := plan.prune Decision.isRendered
    (request.walk (Forest.pruneAlong Decision.isRendered plan thread)).value = shown ∧
      shown.labels = plan.labels.filter Decision.isRendered ∧
      ∀ d ∈ shown.labels, d.disposition ≠ .omit := by
  have hlabels := Forest.labels_prune (request.failsDownward_plan thread)
  simp only [value_walk]
  refine ⟨?_, hlabels, ?_⟩
  · rw [plan_eq, plan_eq]
    exact request.planFrom_pruneAlong {} thread
  · intro d hd
    rw [hlabels, List.mem_filter] at hd
    exact Decision.isRendered_iff.mp hd.2

end Request

end Discussion
