import Discussion.Proofs.Program.Acting
import Discussion.Proofs.Program.Interleaving

/-!
# Looking on while others act

A program that only looks changes nothing for the others, but what it sees may change between two
of its looks.  On a run of programs that share a world, each of its answers comes from a world
that is passed on the run, and the worlds come in the order of the run.
-/

namespace Discussion

namespace Program

variable {α β : Type}

/-- A program that comes to a result when each of its actions is answered in a world of its own. -/
inductive Watches : Program α → List World → α → Prop
  | done (a : α) : Watches (.done a) [] a
  | perform {action : Action} {next : action.Answer → Program α} {world : World}
      {worlds : List World} {a : α} (h : Watches (next (world.answer action).1) worlds a) :
      Watches (.perform action next) (world :: worlds) a

theorem watches_pure_iff {a b : α} {worlds : List World} :
    (pure a : Program α).Watches worlds b ↔ worlds = [] ∧ b = a := by
  constructor
  · intro h
    cases h
    exact ⟨rfl, rfl⟩
  · rintro ⟨rfl, rfl⟩
    exact .done _

theorem watches_act_iff {action : Action} {answer : action.Answer} {worlds : List World} :
    (act action).Watches worlds answer ↔
      ∃ world, worlds = [world] ∧ (world.answer action).1 = answer := by
  constructor
  · intro h
    cases h with
    | perform h =>
        cases h
        exact ⟨_, rfl, rfl⟩
  · rintro ⟨world, rfl, rfl⟩
    exact .perform (.done _)

/-- Two programs one after the other look on one after the other. -/
theorem watches_bind_iff {program : Program α} {next : α → Program β} {worlds : List World}
    {b : β} :
    (program >>= next).Watches worlds b ↔
      ∃ a before after, program.Watches before a ∧ (next a).Watches after b ∧
        worlds = before ++ after := by
  constructor
  · intro h
    change (program.bind next).Watches worlds b at h
    induction program generalizing worlds with
    | done a => exact ⟨a, [], worlds, .done a, h, rfl⟩
    | perform action after ih =>
        cases h with
        | @perform _ _ world _ _ h =>
            obtain ⟨a, first, second, hfirst, hsecond, rfl⟩ := ih _ h
            exact ⟨a, world :: first, second, .perform hfirst, hsecond, rfl⟩
  · rintro ⟨a, before, after, hbefore, hafter, rfl⟩
    change (program.bind next).Watches (before ++ after) b
    induction hbefore with
    | done => exact hafter
    | perform _ ih => exact .perform (ih hafter)

/-- Reporting looks at nothing. -/
theorem value_of_watches_absorb {x : Logged α} {worlds : List World} {a : α}
    (h : (Reports.absorb x : Program α).Watches worlds a) : a = x.value := by
  obtain ⟨_, _, _, -, hdone, -⟩ := watches_bind_iff.mp h
  exact (watches_pure_iff.mp hdone).2

theorem Step.bind {program after : Program α} {world next : World}
    (h : program.Step world after next) (rest : α → Program β) :
    (program >>= rest).Step world (after >>= rest) next := by
  cases h with
  | perform action after world => exact .perform action (fun answer => (after answer).bind rest) _
  | mishap hmishap hremove => exact .mishap hmishap hremove

/-- No look goes wrong. -/
theorem Step.of_isLook {action : Action} {next : action.Answer → Program α}
    {program : Program α} {world after : World} (hlook : action.IsLook)
    (h : (Program.perform action next).Step world program after) :
    program = next (world.answer action).1 ∧ after = (world.answer action).2 := by
  cases h with
  | perform => exact ⟨rfl, rfl⟩
  | mishap hmishap hremove => cases hmishap <;> exact hlook.elim

end Program

namespace Crowd

variable {ι α : Type} [DecidableEq ι] {may : Crowd ι α → ι → Prop} {crowd middle last : Crowd ι α}
  {passed others : List (Crowd ι α)} {i : ι}

/-- A run of some programs with what is passed on it, the last excepted. -/
inductive Runs (may : Crowd ι α → ι → Prop) :
    Crowd ι α → List (Crowd ι α) → Crowd ι α → Prop
  | stay (crowd : Crowd ι α) : Runs may crowd [] crowd
  | act {crowd next last : Crowd ι α} {passed : List (Crowd ι α)} (h : Step may crowd next)
      (hrest : Runs may next passed last) : Runs may crowd (crowd :: passed) last

theorem Runs.trans (h : Runs may crowd passed middle) (h' : Runs may middle others last) :
    Runs may crowd (passed ++ others) last := by
  induction h with
  | stay => exact h'
  | act hstep _ ih => exact .act hstep (ih h')

/-- A program that only looks sees worlds that are passed, in their order. -/
theorem Runs.exists_watches {a : α} (h : Runs may crowd passed last)
    (hlooks : (crowd.programs i).Does Action.IsLook) (hdone : last.programs i = .done a) :
    ∃ worlds, worlds.Sublist (passed.map (·.world)) ∧ (crowd.programs i).Watches worlds a := by
  induction h with
  | stay crowd => exact ⟨[], List.nil_sublist _, by rw [hdone]; exact .done a⟩
  | @act crowd next last passed hstep _ ih =>
      obtain @⟨j, program, world, hmay, hact⟩ := hstep
      rw [List.map_cons]
      by_cases hj : i = j
      · subst hj
        cases hprogram : crowd.programs i with
        | done b =>
            rw [hprogram] at hact
            cases hact
        | perform action after =>
            rw [hprogram] at hact hlooks
            -- Its own look is answered in the world that is passed here.
            obtain ⟨rfl, rfl⟩ := hact.of_isLook hlooks.1
            simp only [Function.update_self] at ih
            obtain ⟨worlds, hworlds, hwatches⟩ := ih (hlooks.2 _) hdone
            exact ⟨crowd.world :: worlds, hworlds.cons_cons _, .perform hwatches⟩
      · simp only [Function.update_of_ne hj] at ih
        obtain ⟨worlds, hworlds, hwatches⟩ := ih hlooks hdone
        exact ⟨worlds, hworlds.cons _, hwatches⟩

/-- While the others pause, a program that only looks runs as it would alone. -/
theorem exists_runs_of_looks {β : Type} {program : Program β} {next : β → Program α}
    (may : Crowd ι α → ι → Prop) (hmay : ∀ crowd, may crowd i)
    (hlooks : program.Does Action.IsLook) (hprogram : crowd.programs i = program >>= next) :
    ∃ passed, Runs may crowd passed
        { programs := Function.update crowd.programs i (next (program.run crowd.world).1)
          world := (program.run crowd.world).2 } ∧
      ∀ other ∈ passed, ∃ events, other.world = { crowd.world with events := events } := by
  induction program generalizing crowd with
  | done a =>
      have hsame : crowd.programs i = next a := hprogram
      refine ⟨[], ?_, by simp⟩
      rw [Program.run, ← hsame, Function.update_eq_self]
      exact .stay crowd
  | perform action after ih =>
      obtain ⟨events, hworld⟩ := crowd.world.answer_of_isLook hlooks.1
      let answered : Crowd ι α :=
        { programs := Function.update crowd.programs i
            ((after (crowd.world.answer action).1).bind next)
          world := (crowd.world.answer action).2 }
      have hstep : Step may crowd answered := by
        refine .act (hmay crowd) ?_
        rw [hprogram]
        exact .perform action (fun answer => (after answer).bind next) _
      have hanswered : answered.programs i = after (crowd.world.answer action).1 >>= next :=
        Function.update_self i _ _
      obtain ⟨passed, hruns, hpassed⟩ := ih _ (hlooks.2 _) hanswered
      simp only [answered, Function.update_idem] at hruns
      refine ⟨crowd :: passed, .act hstep hruns, List.forall_mem_cons.mpr ⟨⟨_, rfl⟩, ?_⟩⟩
      intro other hother
      obtain ⟨more, hmore⟩ := hpassed other hother
      have hsame : answered.world = { crowd.world with events := events } := hworld
      exact ⟨more, by rw [hmore, hsame]⟩

end Crowd

end Discussion
