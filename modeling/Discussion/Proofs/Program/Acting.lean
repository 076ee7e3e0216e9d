import Discussion.Program.World

/-!
# Programs of few kinds of actions

What a program may do to the world is read off the actions that it is made of.  A program
that only reads leaves everything but its reports as it was, and one that only talks says the
same in every world.
-/

namespace Discussion

namespace Program

/-- Whether a program is made of allowed actions, whatever the answers. -/
def Does {α : Type} (allowed : Action → Prop) : Program α → Prop
  | .done _ => True
  | .perform action next => allowed action ∧ ∀ answer, (next answer).Does allowed

variable {α β : Type} {allowed : Action → Prop}

@[simp]
theorem does_pure (a : α) : (pure a : Program α).Does allowed := trivial

theorem does_act {action : Action} (h : allowed action) : (act action).Does allowed :=
  ⟨h, fun _ => trivial⟩

theorem does_bind {program : Program α} {next : α → Program β} (h : program.Does allowed)
    (hnext : ∀ a, (next a).Does allowed) : (program >>= next).Does allowed := by
  change (program.bind next).Does allowed
  induction program with
  | done a => exact hnext a
  | perform action after ih => exact ⟨h.1, fun answer => ih answer (h.2 answer)⟩

theorem does_onSuccess {ε : Type} {program : Program (Except ε α)}
    {next : α → Program (Except ε β)} (h : program.Does allowed)
    (hnext : ∀ a, (next a).Does allowed) : (program.onSuccess next).Does allowed := by
  refine does_bind h fun result => ?_
  cases result with
  | ok a => exact hnext a
  | error fault => exact does_pure _

theorem does_orFault {program : Program (Except DiskFault α)} (h : program.Does allowed)
    (doing : String) : (program.orFault doing).Does allowed := by
  refine does_bind h fun answer => ?_
  cases answer <;> exact does_pure _

theorem does_absorb (hreport : ∀ event, allowed (.report event)) (x : Logged α) :
    (Reports.absorb x : Program α).Does allowed := by
  refine does_bind ?_ fun _ => does_pure _
  induction x.events with
  | nil => exact trivial
  | cons event events ih => exact ⟨hreport event, fun _ => ih⟩

theorem Does.mono {program : Program α} {more : Action → Prop} (h : program.Does allowed)
    (hmore : ∀ action, allowed action → more action) : program.Does more := by
  induction program with
  | done a => exact trivial
  | perform action next ih => exact ⟨hmore action h.1, fun answer => ih answer (h.2 answer)⟩

/-- What every allowed action keeps, a program of such actions keeps. -/
theorem Does.run {program : Program α} (h : program.Does allowed) (kept : World → World → Prop)
    (hrefl : ∀ world, kept world world)
    (htrans : ∀ {first second third}, kept first second → kept second third → kept first third)
    (hstep : ∀ action world, allowed action → kept world (world.answer action).2)
    (world : World) : kept world (program.run world).2 := by
  induction program generalizing world with
  | done a => exact hrefl world
  | perform action next ih =>
      exact htrans (hstep action world h.1) (ih _ (h.2 _) _)

end Program

/-! ## Reading -/

/-- Whether an action only looks at the world, or reports. -/
def Action.IsLook : Action → Prop
  | .pathExists _ | .isDirectory _ | .read _ | .listDirectory _ | .report _ => True
  | _ => False

theorem World.answer_of_isLook {action : Action} (world : World) (h : action.IsLook) :
    ∃ events, (world.answer action).2 = { world with events := events } := by
  cases action with
  | pathExists | isDirectory | read | listDirectory => exact ⟨world.events, rfl⟩
  | report event => exact ⟨world.events ++ [event], rfl⟩
  | _ => exact h.elim

/-- A program that only looks leaves nothing but reports behind. -/
theorem Program.Does.run_of_isLook {α : Type} {program : Program α}
    (h : program.Does Action.IsLook) (world : World) :
    ∃ events, (program.run world).2 = { world with events := events } := by
  refine h.run (fun before after => ∃ events, after = { before with events := events })
    ?_ ?_ (fun action world h => world.answer_of_isLook h) world
  · exact fun world => ⟨world.events, rfl⟩
  · rintro first _ _ ⟨events, rfl⟩ ⟨more, rfl⟩
    exact ⟨more, rfl⟩

/-! ## Talking -/

/-- Whether an action only prints or reports. -/
def Action.IsTalk : Action → Prop
  | .report _ | .print _ | .printError _ => True
  | _ => False

/-- Two runs, each in a world of its own, that come to the same result, print the same text and
complain in the same words. -/
structure SpeaksAlike {α : Type} (first : Program α) (here : World) (second : Program α)
    (there : World) : Prop where
  result : (first.run here).1 = (second.run there).1
  output : ∃ text, (first.run here).2.output = here.output ++ text ∧
    (second.run there).2.output = there.output ++ text
  errorOutput : ∃ text, (first.run here).2.errorOutput = here.errorOutput ++ text ∧
    (second.run there).2.errorOutput = there.errorOutput ++ text

namespace SpeaksAlike

variable {α β : Type}

theorem pure (a : α) (here there : World) :
    SpeaksAlike (Pure.pure a) here (Pure.pure a) there :=
  ⟨rfl, ⟨"", by simp⟩, ⟨"", by simp⟩⟩

theorem bind {first second : Program α} {here there : World} {next other : α → Program β}
    (h : SpeaksAlike first here second there)
    (hnext : SpeaksAlike (next (first.run here).1) (first.run here).2
      (other (first.run here).1) (second.run there).2) :
    SpeaksAlike (first >>= next) here (second >>= other) there := by
  obtain ⟨hresult, ⟨text, hhere, hthere⟩, ⟨error, herror, herror'⟩⟩ := h
  obtain ⟨hresult', ⟨more, hmore, hmore'⟩, ⟨worse, hworse, hworse'⟩⟩ := hnext
  constructor
  · rw [Program.run_bind, Program.run_bind, ← hresult]
    exact hresult'
  · refine ⟨text ++ more, ?_, ?_⟩
    · rw [Program.run_bind, hmore, hhere, String.append_assoc]
    · rw [Program.run_bind, ← hresult, hmore', hthere, String.append_assoc]
  · refine ⟨error ++ worse, ?_, ?_⟩
    · rw [Program.run_bind, hworse, herror, String.append_assoc]
    · rw [Program.run_bind, ← hresult, hworse', herror', String.append_assoc]

theorem onSuccess {ε : Type} {first second : Program (Except ε α)}
    {here there : World} {next other : α → Program (Except ε β)}
    (h : SpeaksAlike first here second there)
    (hnext : ∀ a, (first.run here).1 = .ok a →
      SpeaksAlike (next a) (first.run here).2 (other a) (second.run there).2) :
    SpeaksAlike (first.onSuccess next) here (second.onSuccess other) there := by
  refine h.bind ?_
  cases hresult : (first.run here).1 with
  | ok a => exact hnext a hresult
  | error fault => exact .pure _ _ _

/-- Runs that come to the same result and leave only reports behind say nothing. -/
theorem of_silent {first second : Program α} {here there : World} {a : α}
    (hfirst : ∃ events, first.run here = (a, { here with events := events }))
    (hsecond : ∃ events, second.run there = (a, { there with events := events })) :
    SpeaksAlike first here second there := by
  obtain ⟨events, hfirst⟩ := hfirst
  obtain ⟨others, hsecond⟩ := hsecond
  exact ⟨by rw [hfirst, hsecond], ⟨"", by simp [hfirst, hsecond]⟩, ⟨"", by simp [hfirst, hsecond]⟩⟩

theorem of_isTalk {action : Action} (h : action.IsTalk) (here there : World) :
    SpeaksAlike (Program.act action) here (Program.act action) there := by
  cases action with
  | report event => exact ⟨rfl, ⟨"", by simp [World.answer]⟩, ⟨"", by simp [World.answer]⟩⟩
  | print text => exact ⟨rfl, ⟨text, rfl, rfl⟩, ⟨"", by simp [World.answer]⟩⟩
  | printError text => exact ⟨rfl, ⟨"", by simp [World.answer]⟩, ⟨text, rfl, rfl⟩⟩
  | _ => exact h.elim

/-- A program that only talks says the same in every world. -/
theorem of_does {program : Program α} (h : program.Does Action.IsTalk) (here there : World) :
    SpeaksAlike program here program there := by
  induction program generalizing here there with
  | done a => exact .pure a here there
  | perform action next ih =>
      have hfirst := of_isTalk h.1 here there
      exact hfirst.bind (ih _ (h.2 _) _ _)

end SpeaksAlike

end Discussion
