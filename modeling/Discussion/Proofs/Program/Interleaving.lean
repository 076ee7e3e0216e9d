import Mathlib.Logic.Function.Basic
import Mathlib.Logic.Relation
import Discussion.Proofs.Program.Running

/-!
# Programs that run side by side

Programs that share a world act one after the other, one action at a time and in any order.  An
action may go wrong as in `World.Mishap`, except that a file that can be removed is removed.

Bytes are added by path, to whatever file is there by then.  This is what a program does that
keeps the file open as long as no other program acts between its making the file and its adding
to it, or lets the path stand for another file.
-/

namespace Discussion

namespace Program

variable {α : Type}

/-- One action of a program. -/
inductive Step : Program α → World → Program α → World → Prop
  | perform (action : Action) (next : action.Answer → Program α) (world : World) :
      Step (.perform action next) world (next (world.answer action).1) (world.answer action).2
  | mishap {action : Action} {next : action.Answer → Program α} {world after : World}
      {answer : action.Answer} (hmishap : world.Mishap action answer after)
      (hremove : ∀ path, action ≠ .remove path) :
      Step (.perform action next) world (next answer) after

theorem Step.of_answer {action : Action} {next : action.Answer → Program α} {world after : World}
    {answer : action.Answer} (h : world.answer action = (answer, after)) :
    Step (.perform action next) world (next answer) after := by
  have hstep := Step.perform action next world
  rwa [h] at hstep

/-- One action of a program is a run of that action, on which no removal goes wrong. -/
theorem Step.cases {action : Action} {next : action.Answer → Program α} {program : Program α}
    {world after : World} (h : Step (.perform action next) world program after) :
    ∃ answer mishaps, program = next answer ∧ (act action).RunsTo world mishaps answer after ∧
      ∀ path, .remove path ∉ mishaps := by
  cases h with
  | perform =>
      exact ⟨_, [], rfl, runsTo_act_iff.mpr (Or.inl ⟨rfl, rfl⟩), fun _ => List.not_mem_nil⟩
  | mishap hmishap hremove =>
      refine ⟨_, [action], rfl, runsTo_act_iff.mpr (Or.inr ⟨rfl, hmishap⟩), fun path hmem => ?_⟩
      exact hremove path (List.mem_singleton.mp hmem).symm

theorem not_step_done {a : α} {program : Program α} {world after : World} :
    ¬ Step (.done a) world program after := by
  intro h
  cases h

end Program

/-- Programs that share a world. -/
structure Crowd (ι α : Type) where
  programs : ι → Program α
  world : World

namespace Crowd

variable {ι α : Type} [DecidableEq ι]

/-- One of the programs that may act performs an action. -/
inductive Step (may : Crowd ι α → ι → Prop) (crowd : Crowd ι α) : Crowd ι α → Prop
  | act {i : ι} {program : Program α} {world : World} (hmay : may crowd i)
      (h : (crowd.programs i).Step crowd.world program world) :
      Step may crowd { programs := Function.update crowd.programs i program, world := world }

/-- What some programs may come to when they act in turn. -/
abbrev Reaches (may : Crowd ι α → ι → Prop) : Crowd ι α → Crowd ι α → Prop :=
  Relation.ReflTransGen (Step may)

end Crowd

end Discussion
