import Discussion.Program.World

/-!
# Runs that may go wrong

`Program.run` carries a program out on the disk in memory, which refuses only what no disk
could do.  A real disk may also fail: it may be full, or taken away.  Here a program may
run into such mishaps at any of its writing actions, and a run says which they were.
-/

namespace Discussion

/-- How an action that writes or removes a file may fail although the disk in memory would
do it.  Nothing has happened then, or the file has been emptied, or the beginning of what
was to be added has been added.  A file is renamed wholly or not at all. -/
inductive World.Mishap (world : World) : (action : Action) → action.Answer → World → Prop
  | create (path : String) (fault : DiskFault) : Mishap world (.create path) (.error fault) world
  | emptied {path : String} {disk : Disk} (fault : DiskFault)
      (h : world.disk.create world.working path = .ok disk) :
      Mishap world (.create path) (.error fault) { world with disk := disk }
  | append (path : String) (bytes : Utf8.Bytes) (fault : DiskFault) :
      Mishap world (.append path bytes) (.error fault) world
  | cut {path : String} {bytes written : Utf8.Bytes} {disk : Disk} (fault : DiskFault)
      (hwritten : written <+: bytes)
      (h : world.disk.append world.working path written = .ok disk) :
      Mishap world (.append path bytes) (.error fault) { world with disk := disk }
  | rename (source target : String) (fault : DiskFault) :
      Mishap world (.rename source target) (.error fault) world
  | remove (path : String) (fault : DiskFault) : Mishap world (.remove path) (.error fault) world

namespace Program

/-- A run of a program with the actions that went wrong on it, its result, and the world
after it. -/
inductive RunsTo {α : Type} : Program α → World → List Action → α → World → Prop
  | done (a : α) (world : World) : RunsTo (.done a) world [] a world
  | perform {action : Action} {next : action.Answer → Program α} {world last : World}
      {mishaps : List Action} {result : α}
      (h : RunsTo (next (world.answer action).1) (world.answer action).2 mishaps result last) :
      RunsTo (.perform action next) world mishaps result last
  | mishap {action : Action} {next : action.Answer → Program α} {world after last : World}
      {mishaps : List Action} {result : α} {answer : action.Answer}
      (hmishap : world.Mishap action answer after)
      (h : RunsTo (next answer) after mishaps result last) :
      RunsTo (.perform action next) world (action :: mishaps) result last

/-- A program whose actions all go well runs as on the disk in memory. -/
theorem runsTo_nil_iff {α : Type} {program : Program α} {world last : World} {result : α} :
    program.RunsTo world [] result last ↔ program.run world = (result, last) := by
  induction program generalizing world with
  | done a =>
      constructor
      · intro h
        cases h
        rfl
      · intro h
        cases h
        exact .done _ _
  | perform action next ih =>
      constructor
      · intro h
        cases h with
        | perform h => exact (ih _).mp h
      · intro h
        exact .perform ((ih _).mpr h)

theorem runsTo_pure_iff {α : Type} {a result : α} {world last : World} {mishaps : List Action} :
    (pure a : Program α).RunsTo world mishaps result last ↔
      mishaps = [] ∧ result = a ∧ last = world := by
  constructor
  · intro h
    cases h
    exact ⟨rfl, rfl, rfl⟩
  · rintro ⟨rfl, rfl, rfl⟩
    exact .done _ _

theorem runsTo_act_iff {action : Action} {answer : action.Answer} {world last : World}
    {mishaps : List Action} :
    (act action).RunsTo world mishaps answer last ↔
      (mishaps = [] ∧ world.answer action = (answer, last)) ∨
        (mishaps = [action] ∧ world.Mishap action answer last) := by
  constructor
  · intro h
    cases h with
    | perform h =>
        cases h
        exact Or.inl ⟨rfl, rfl⟩
    | mishap hmishap h =>
        cases h
        exact Or.inr ⟨rfl, hmishap⟩
  · rintro (⟨rfl, h⟩ | ⟨rfl, h⟩)
    · exact runsTo_nil_iff.mpr h
    · exact .mishap h (.done _ _)

/-- A run of two programs one after the other is a run of each. -/
theorem runsTo_bind_iff {α β : Type} {program : Program α} {next : α → Program β}
    {world last : World} {mishaps : List Action} {result : β} :
    (program >>= next).RunsTo world mishaps result last ↔
      ∃ a middle before after, program.RunsTo world before a middle ∧
        (next a).RunsTo middle after result last ∧ mishaps = before ++ after := by
  constructor
  · intro h
    change (program.bind next).RunsTo world mishaps result last at h
    induction program generalizing world mishaps with
    | done a => exact ⟨a, world, [], mishaps, .done a world, h, rfl⟩
    | perform action after ih =>
        cases h with
        | perform h =>
            obtain ⟨a, middle, first, second, hfirst, hsecond, rfl⟩ := ih _ h
            exact ⟨a, middle, first, second, .perform hfirst, hsecond, rfl⟩
        | mishap hmishap h =>
            obtain ⟨a, middle, first, second, hfirst, hsecond, rfl⟩ := ih _ h
            exact ⟨a, middle, action :: first, second, .mishap hmishap hfirst, hsecond, rfl⟩
  · rintro ⟨a, middle, before, after, hbefore, hafter, rfl⟩
    change (program.bind next).RunsTo world (before ++ after) result last
    induction hbefore with
    | done => exact hafter
    | perform _ ih => exact .perform (ih hafter)
    | mishap hmishap _ ih => exact .mishap hmishap (ih hafter)

theorem runsTo_onSuccess_iff {ε α β : Type} {program : Program (Except ε α)}
    {next : α → Program (Except ε β)} {world last : World} {mishaps : List Action}
    {result : Except ε β} :
    (program.onSuccess next).RunsTo world mishaps result last ↔
      (∃ fault, program.RunsTo world mishaps (.error fault) last ∧ result = .error fault) ∨
        ∃ a middle before after, program.RunsTo world before (.ok a) middle ∧
          (next a).RunsTo middle after result last ∧ mishaps = before ++ after := by
  refine Iff.trans runsTo_bind_iff ?_
  constructor
  · rintro ⟨outcome, middle, before, after, hbefore, hafter, rfl⟩
    cases outcome with
    | ok a => exact Or.inr ⟨a, middle, before, after, hbefore, hafter, rfl⟩
    | error fault =>
        obtain ⟨rfl, rfl, rfl⟩ := runsTo_pure_iff.mp hafter
        rw [List.append_nil]
        exact Or.inl ⟨fault, hbefore, rfl⟩
  · rintro (⟨fault, hfails, rfl⟩ | ⟨a, middle, before, after, hbefore, hafter, rfl⟩)
    · exact ⟨.error fault, last, mishaps, [], hfails, runsTo_pure_iff.mpr ⟨rfl, rfl, rfl⟩,
        (List.append_nil mishaps).symm⟩
    · exact ⟨.ok a, middle, before, after, hbefore, hafter, rfl⟩

theorem runsTo_orFault_iff {α : Type} {program : Program (Except DiskFault α)} {doing : String}
    {world last : World} {mishaps : List Action} {result : Except Fault α} :
    (program.orFault doing).RunsTo world mishaps result last ↔
      ∃ answer, program.RunsTo world mishaps answer last ∧
        result = answer.mapError fun fault => .io (doing ++ fault.message) := by
  refine Iff.trans runsTo_bind_iff ?_
  constructor
  · rintro ⟨answer, middle, before, after, hbefore, hafter, rfl⟩
    cases answer with
    | ok a =>
        obtain ⟨rfl, rfl, rfl⟩ := runsTo_pure_iff.mp hafter
        rw [List.append_nil]
        exact ⟨.ok a, hbefore, rfl⟩
    | error fault =>
        obtain ⟨rfl, rfl, rfl⟩ := runsTo_pure_iff.mp hafter
        rw [List.append_nil]
        exact ⟨.error fault, hbefore, rfl⟩
  · rintro ⟨answer, hanswer, rfl⟩
    refine ⟨answer, last, mishaps, [], hanswer, ?_, (List.append_nil mishaps).symm⟩
    cases answer <;> exact runsTo_pure_iff.mpr ⟨rfl, rfl, rfl⟩

/-! ## Runs whose beginning is known -/

theorem run_onSuccess_of_ok {ε α β : Type} {program : Program (Except ε α)} {world last : World}
    {a : α} (h : program.run world = (.ok a, last)) (next : α → Program (Except ε β)) :
    (program.onSuccess next).run world = (next a).run last := by
  rw [onSuccess, run_bind, h]

theorem run_onSuccess_of_error {ε α β : Type} {program : Program (Except ε α)}
    {world last : World} {fault : ε} (h : program.run world = (.error fault, last))
    (next : α → Program (Except ε β)) :
    (program.onSuccess next).run world = (.error fault, last) := by
  rw [onSuccess, run_bind, h]
  rfl

theorem run_orFault_of_ok {α : Type} {program : Program (Except DiskFault α)}
    {world last : World} {a : α} (h : program.run world = (.ok a, last)) (doing : String) :
    (program.orFault doing).run world = (.ok a, last) := by
  rw [orFault, run_bind, h]
  rfl

theorem run_orFault_of_error {α : Type} {program : Program (Except DiskFault α)}
    {world last : World} {fault : DiskFault} (h : program.run world = (.error fault, last))
    (doing : String) :
    (program.orFault doing).run world = (.error (.io (doing ++ fault.message)), last) := by
  rw [orFault, run_bind, h]
  rfl

/-! ## Runs without refusals -/

end Program

/-- Whether an answer of the disk is a refusal. -/
def refuses {α : Type} : Except DiskFault α → Bool
  | .error _ => true
  | .ok _ => false

theorem refuses_eq_false_iff {α : Type} {answer : Except DiskFault α} :
    refuses answer = false ↔ ∃ a, answer = .ok a := by
  cases answer <;> simp [refuses]

/-- Whether an action is refused by the disk. -/
def Action.isRefused : (action : Action) → action.Answer → Bool
  | .read _, answer => refuses answer
  | .create _, answer => refuses answer
  | .append _ _, answer => refuses answer
  | .rename _ _, answer => refuses answer
  | .remove _, answer => refuses answer
  | .copy _ _, answer => refuses answer
  | .makeDirectory _, answer => refuses answer
  | .listDirectory _, answer => refuses answer
  | _, _ => false

namespace Program

/-- Whether nothing is refused when a program runs on the disk in memory. -/
def Unrefused {α : Type} (program : Program α) (world : World) : Prop :=
  match program with
  | .done _ => True
  | .perform action next =>
      action.isRefused (world.answer action).1 = false ∧
        (next (world.answer action).1).Unrefused (world.answer action).2

theorem unrefused_bind_iff {α β : Type} {program : Program α} {next : α → Program β}
    {world : World} :
    (program >>= next).Unrefused world ↔
      program.Unrefused world ∧ (next (program.run world).1).Unrefused (program.run world).2 := by
  change (program.bind next).Unrefused world ↔ _
  induction program generalizing world with
  | done a => exact (and_iff_right trivial).symm
  | perform action after ih =>
      change (_ ∧ _) ↔ ((_ ∧ _) ∧ _)
      rw [and_assoc]
      exact and_congr_right fun _ => ih _

/-- A program that fails on the disk in memory exactly when something is refused there. -/
def FailsIfRefused {ε α : Type} (program : Program (Except ε α)) : Prop :=
  ∀ world, program.Unrefused world ↔ ∃ a, (program.run world).1 = .ok a

theorem failsIfRefused_act {α : Type} (action : Action)
    (read : action.Answer → Except DiskFault α)
    (hread : ∀ answer, action.isRefused answer = false ↔ ∃ a, read answer = .ok a) :
    FailsIfRefused (.perform action fun answer => .done (read answer)) := by
  intro world
  exact (and_iff_left trivial).trans (hread _)

theorem failsIfRefused_create (path : String) : FailsIfRefused (create path) :=
  failsIfRefused_act (.create path) (fun answer => answer) fun _ => refuses_eq_false_iff

theorem failsIfRefused_append (path : String) (bytes : Utf8.Bytes) :
    FailsIfRefused (append path bytes) :=
  failsIfRefused_act (.append path bytes) (fun answer => answer) fun _ => refuses_eq_false_iff

theorem failsIfRefused_rename (source target : String) : FailsIfRefused (rename source target) :=
  failsIfRefused_act (.rename source target) (fun answer => answer) fun _ => refuses_eq_false_iff

theorem failsIfRefused_orFault {α : Type} {program : Program (Except DiskFault α)}
    (h : program.FailsIfRefused) (doing : String) : (program.orFault doing).FailsIfRefused := by
  intro world
  rw [orFault, unrefused_bind_iff, h world, run_bind]
  cases hanswer : (program.run world).1 with
  | ok a => exact ⟨fun _ => ⟨a, rfl⟩, fun _ => ⟨⟨a, rfl⟩, trivial⟩⟩
  | error fault =>
      constructor
      · rintro ⟨⟨a, ha⟩, -⟩
        cases ha
      · rintro ⟨a, ha⟩
        cases ha

theorem failsIfRefused_onSuccess {ε α β : Type} {program : Program (Except ε α)}
    {next : α → Program (Except ε β)} (h : program.FailsIfRefused)
    (hnext : ∀ a, (next a).FailsIfRefused) : (program.onSuccess next).FailsIfRefused := by
  intro world
  rw [onSuccess, unrefused_bind_iff, h world, run_bind]
  cases hanswer : (program.run world).1 with
  | ok a =>
      refine Iff.trans (and_iff_right ⟨a, rfl⟩) ?_
      exact hnext a _
  | error fault =>
      constructor
      · rintro ⟨⟨a, ha⟩, -⟩
        cases ha
      · rintro ⟨a, ha⟩
        cases ha

/-! ## Writing actions -/

/-- A change of the disk is made wholly, or refused without effect. -/
theorem change_cases {world last : World} {changed : Except DiskFault Disk}
    {answer : Except DiskFault Unit} (h : world.change changed = (answer, last)) :
    (answer = .ok () ∧ ∃ disk, changed = .ok disk ∧ last = { world with disk := disk }) ∨
      ∃ fault, answer = .error fault ∧ changed = .error fault ∧ last = world := by
  cases changed with
  | ok disk =>
      cases h
      exact Or.inl ⟨rfl, disk, rfl, rfl⟩
  | error fault =>
      cases h
      exact Or.inr ⟨fault, rfl, rfl, rfl⟩

theorem change_of_ok {world : World} {changed : Except DiskFault Disk} {disk : Disk}
    (h : changed = .ok disk) : world.change changed = (.ok (), { world with disk := disk }) := by
  rw [h]
  rfl

theorem runsTo_create {path : String} {world last : World} {mishaps : List Action}
    {answer : Except DiskFault Unit} (h : (create path).RunsTo world mishaps answer last) :
    (answer = .ok () ∧ mishaps = [] ∧ ∃ disk, world.disk.create world.working path = .ok disk ∧
        last = { world with disk := disk }) ∨
      ((∃ fault, answer = .error fault) ∧ (last = world ∨
        ∃ disk, world.disk.create world.working path = .ok disk ∧
          last = { world with disk := disk })) := by
  rcases runsTo_act_iff.mp h with ⟨rfl, hanswer⟩ | ⟨rfl, hmishap⟩
  · rcases change_cases hanswer with ⟨rfl, hdone⟩ | ⟨fault, rfl, -, rfl⟩
    · exact Or.inl ⟨rfl, rfl, hdone⟩
    · exact Or.inr ⟨⟨fault, rfl⟩, Or.inl rfl⟩
  · cases hmishap with
    | create fault => exact Or.inr ⟨⟨_, rfl⟩, Or.inl rfl⟩
    | emptied fault hcreate => exact Or.inr ⟨⟨_, rfl⟩, Or.inr ⟨_, hcreate, rfl⟩⟩

theorem runsTo_append {path : String} {bytes : Utf8.Bytes} {world last : World}
    {mishaps : List Action} {answer : Except DiskFault Unit}
    (h : (append path bytes).RunsTo world mishaps answer last) :
    (answer = .ok () ∧ mishaps = [] ∧
        ∃ disk, world.disk.append world.working path bytes = .ok disk ∧
          last = { world with disk := disk }) ∨
      ((∃ fault, answer = .error fault) ∧ (last = world ∨
        ∃ written disk, world.disk.append world.working path written = .ok disk ∧
          last = { world with disk := disk })) := by
  rcases runsTo_act_iff.mp h with ⟨rfl, hanswer⟩ | ⟨rfl, hmishap⟩
  · rcases change_cases hanswer with ⟨rfl, hdone⟩ | ⟨fault, rfl, -, rfl⟩
    · exact Or.inl ⟨rfl, rfl, hdone⟩
    · exact Or.inr ⟨⟨fault, rfl⟩, Or.inl rfl⟩
  · cases hmishap with
    | append fault => exact Or.inr ⟨⟨_, rfl⟩, Or.inl rfl⟩
    | cut fault hwritten happend => exact Or.inr ⟨⟨_, rfl⟩, Or.inr ⟨_, _, happend, rfl⟩⟩

theorem runsTo_rename {source target : String} {world last : World} {mishaps : List Action}
    {answer : Except DiskFault Unit} (h : (rename source target).RunsTo world mishaps answer last) :
    (answer = .ok () ∧ mishaps = [] ∧
        ∃ disk, world.disk.rename world.working source target = .ok disk ∧
          last = { world with disk := disk }) ∨
      ((∃ fault, answer = .error fault) ∧ last = world) := by
  rcases runsTo_act_iff.mp h with ⟨rfl, hanswer⟩ | ⟨rfl, hmishap⟩
  · rcases change_cases hanswer with ⟨rfl, hdone⟩ | ⟨fault, rfl, -, rfl⟩
    · exact Or.inl ⟨rfl, rfl, hdone⟩
    · exact Or.inr ⟨⟨fault, rfl⟩, rfl⟩
  · cases hmishap with
    | rename fault => exact Or.inr ⟨⟨_, rfl⟩, rfl⟩

theorem runsTo_remove {path : String} {world last : World} {mishaps : List Action}
    {answer : Except DiskFault Unit} (h : (remove path).RunsTo world mishaps answer last) :
    (∃ disk, world.disk.remove world.working path = .ok disk ∧
        last = { world with disk := disk }) ∨
      (last = world ∧ (.remove path ∈ mishaps ∨
        ∃ fault, world.disk.remove world.working path = .error fault)) := by
  rcases runsTo_act_iff.mp h with ⟨rfl, hanswer⟩ | ⟨rfl, hmishap⟩
  · rcases change_cases hanswer with ⟨-, hdone⟩ | ⟨fault, -, hrefused, rfl⟩
    · exact Or.inl hdone
    · exact Or.inr ⟨rfl, Or.inr ⟨fault, hrefused⟩⟩
  · cases hmishap with
    | remove fault => exact Or.inr ⟨rfl, Or.inl (by simp)⟩

end Program

end Discussion
