import Discussion.Proofs.Forest.Growth
import Discussion.Proofs.Plan.Decision

/-!
# Plans root by root

The plan for a root and all that stands below it depends on nothing that stands beside
it.  So the plan for some trees consists of the plans for each of them, and the plan for
the first roots of a thread consists of the first roots of the plan.
-/

namespace Discussion

namespace Request

theorem roots_plan (request : Request) (thread : Thread) :
    (request.plan thread).roots = thread.roots.map (request.planned []) := by
  apply List.ext_getElem?
  intro i
  have hplan := request.treeAt?_plan thread [i]
  rw [Forest.treeAt?_singleton, Forest.treeAt?_singleton, Forest.above_singleton] at hplan
  rw [List.getElem?_map, hplan]

theorem plan_ofTrees (request : Request) (trees : List (Tree Comment)) :
    request.plan (.ofTrees trees) = .ofTrees (trees.map (request.planned [])) := by
  have hroots := request.roots_plan (.ofTrees trees)
  rw [Forest.roots_ofTrees] at hroots
  rw [← hroots, Forest.ofTrees_roots]

@[simp]
theorem rootCount_plan (request : Request) (thread : Thread) :
    (request.plan thread).rootCount = thread.rootCount := by
  rw [Forest.rootCount, Forest.rootCount, Forest.trees_eq, Forest.trees_eq, roots_plan,
    List.length_map]

/-- The plan for the first roots of a thread. -/
theorem plan_take (request : Request) (thread : Thread) (n : Nat) :
    request.plan (thread.take n) = (request.plan thread).take n := by
  rw [Forest.take, Forest.take, Forest.trees_eq, Forest.trees_eq, roots_plan, plan_ofTrees,
    List.map_take]

end Request

end Discussion
