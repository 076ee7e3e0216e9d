import Discussion.Program.Basic

/-!
# Worlds in memory

An outside world for programs: a disk, a working directory, a clock that stands
still, and what was printed and reported so far.  Nobody is there to consent.
-/

namespace Discussion

/-- An outside world in memory. -/
structure World where
  disk : Disk := {}
  /-- The working directory. -/
  working : Location := []
  /-- The local time. -/
  now : String := "19700101-000000"
  output : String := ""
  errorOutput : String := ""
  events : List Event := []
deriving DecidableEq, Repr

namespace World

/-- The answer to an operation that changes the disk, and the world after it. -/
def change (world : World) : Except DiskFault Disk → Except DiskFault Unit × World
  | .ok disk => (.ok (), { world with disk := disk })
  | .error fault => (.error fault, world)

/-- The answer to an action, and the world after it. -/
def answer (world : World) : (action : Action) → action.Answer × World
  | .pathExists path => (world.disk.contains world.working path, world)
  | .isDirectory path => (world.disk.isDirectory world.working path, world)
  | .read path => (world.disk.read world.working path, world)
  | .create path => world.change (world.disk.create world.working path)
  | .append path bytes => world.change (world.disk.append world.working path bytes)
  | .rename source target => world.change (world.disk.rename world.working source target)
  | .remove path => world.change (world.disk.remove world.working path)
  | .copy source target => world.change (world.disk.copy world.working source target)
  | .makeDirectory path => world.change (world.disk.makeDirectory world.working path)
  | .listDirectory path => (world.disk.names world.working path, world)
  | .report event => ((), { world with events := world.events ++ [event] })
  | .print text => ((), { world with output := world.output ++ text })
  | .printError text => ((), { world with errorOutput := world.errorOutput ++ text })
  | .confirm _ => (.error (.other "not a terminal"), world)
  | .localTime => (world.now, world)

end World

/-- The result of a program in a world, and the world after it. -/
def Program.run {α : Type} (program : Program α) (world : World) : α × World :=
  match program with
  | .done a => (a, world)
  | .perform action next =>
      let (answer, world) := world.answer action
      (next answer).run world

namespace Program

@[simp]
theorem run_pure {α : Type} (a : α) (world : World) :
    (pure a : Program α).run world = (a, world) := rfl

@[simp]
theorem run_bind {α β : Type} (program : Program α) (next : α → Program β) (world : World) :
    (program >>= next).run world =
      (next (program.run world).1).run (program.run world).2 := by
  change (program.bind next).run world = _
  induction program generalizing world with
  | done a => rfl
  | perform action after ih => exact ih _ _

@[simp]
theorem run_act (action : Action) (world : World) :
    (act action).run world = world.answer action := rfl

end Program

end Discussion
