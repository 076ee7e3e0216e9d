import Discussion.Proofs.Program.Interleaving
import Discussion.Proofs.Store.Saving

/-!
# Stages of a save

A save of a valid snapshot makes a file, fills it, moves it and reports.  After a failure it
clears what it wrote.  What each of these actions comes to is told here by what the two paths of
the commentable hold, whoever wrote it.
-/

namespace Discussion

open Disk

/-! ## What a path holds -/

/-- The bytes of the file to which a path leads. -/
@[irreducible]
def World.content? (world : World) (path : String) : Option Utf8.Bytes :=
  (world.disk.read world.working path).toOption

theorem World.content?_eq_some_iff {world : World} {path : String} {bytes : Utf8.Bytes} :
    world.content? path = some bytes ↔ ∃ location,
      world.disk.leadsTo world.working path = .ok location ∧
        world.disk.file? location = some bytes := by
  rw [← read_eq_ok_iff, content?]
  cases world.disk.read world.working path <;> simp [Except.toOption]

theorem World.content?_eq_none_iff {world : World} {path : String} :
    world.content? path = none ↔ ∀ location,
      world.disk.leadsTo world.working path = .ok location → world.disk.file? location = none := by
  rw [Option.eq_none_iff_forall_ne_some]
  simp only [ne_eq, content?_eq_some_iff, not_exists, not_and]
  constructor
  · intro h location hleads
    exact Option.eq_none_iff_forall_ne_some.mpr fun bytes hfile => h bytes location hleads hfile
  · intro h bytes location hleads hfile
    rw [h location hleads] at hfile
    cases hfile

theorem World.contains_of_content? {world : World} {path : String} {bytes : Utf8.Bytes}
    (h : world.content? path = some bytes) : world.disk.contains world.working path = true := by
  obtain ⟨location, hleads, hfile⟩ := content?_eq_some_iff.mp h
  refine (contains_iff _ _ _).mpr ⟨location, hleads, fun hnone => ?_⟩
  rw [(at?_eq_none_iff.mp hnone).1] at hfile
  cases hfile

theorem World.content?_of_create {world : World} {disk : Disk} {path : String}
    (h : world.disk.create world.working path = .ok disk) :
    World.content? { world with disk := disk } path = some [] := by
  obtain ⟨location, hleads, hfile, hdiffers⟩ := create_spec h
  exact content?_eq_some_iff.mpr ⟨location, hdiffers.leadsTo_eq_ok_iff.mpr hleads, hfile⟩

theorem World.content?_of_append {world : World} {disk : Disk} {path : String}
    {bytes : Utf8.Bytes} (h : world.disk.append world.working path bytes = .ok disk) :
    ∃ former, world.content? path = some former ∧
      World.content? { world with disk := disk } path = some (former ++ bytes) := by
  obtain ⟨location, former, hleads, hformer, hfile, hdiffers⟩ := append_spec h
  exact ⟨former, content?_eq_some_iff.mpr ⟨location, hleads, hformer⟩,
    content?_eq_some_iff.mpr ⟨location, hdiffers.leadsTo_eq_ok_iff.mpr hleads, hfile⟩⟩

theorem World.content?_of_remove {world : World} {disk : Disk} {path : String}
    (h : world.disk.remove world.working path = .ok disk) :
    World.content? { world with disk := disk } path = none := by
  obtain ⟨location, hleads, hnone, hdiffers⟩ := remove_spec h
  refine content?_eq_none_iff.mpr fun place hplace => ?_
  rw [hdiffers.leadsTo_eq_ok_iff.mp hplace] at hleads
  obtain rfl := Except.ok.inj hleads
  exact hnone

/-- A change elsewhere leaves what a path holds. -/
theorem World.content?_eq {before after : World} {locations : Location → Prop} {path : String}
    (h : DiffersOnlyAt before.disk after.disk locations) (hworking : after.working = before.working)
    (hpath : ∀ location, before.disk.leadsTo before.working path = .ok location →
      ¬ locations location) : after.content? path = before.content? path := by
  refine Option.ext fun bytes => ?_
  rw [content?_eq_some_iff, content?_eq_some_iff, hworking]
  refine exists_congr fun location => ?_
  rw [h.leadsTo_eq_ok_iff]
  exact and_congr_right fun hleads => by rw [h.file?_eq location (hpath location hleads)]

/-- What is not lost from the disk is still what a path holds. -/
theorem World.content?_of_extends {before after : World} (h : Extends before.disk after.disk)
    (hworking : after.working = before.working) {path : String} {bytes : Utf8.Bytes}
    (hbytes : before.content? path = some bytes) : after.content? path = some bytes := by
  obtain ⟨location, hleads, hfile⟩ := content?_eq_some_iff.mp hbytes
  refine content?_eq_some_iff.mpr ⟨location, ?_, h.file?_eq hfile⟩
  rw [hworking]
  exact leadsTo_of_isDirectoryAt h.isDirectoryAt hleads

namespace Store

/-! ## Stages of a save -/

/-- How far a save has come. -/
inductive Stage
  | making
  | filling
  | moving
  | clearing (fault : Fault)
  | reporting
  | done (result : Except Fault Unit)
deriving DecidableEq

variable (store : Store) (snapshot : Snapshot)

/-- What is left to do after a failure. -/
def clearingProgram (fault : Fault) : Program (Except Fault Unit) :=
  .perform (.remove (store.tempPath snapshot.reference)) fun _ => .done (.error fault)

/-- What is left to do once the snapshot is in its place. -/
def reportingProgram : Program (Except Fault Unit) :=
  .perform (.report (.savedSnapshot snapshot.reference (store.path snapshot.reference)))
    fun _ => .done (.ok ())

/-- What is left to do once the file is complete. -/
def movingProgram : Program (Except Fault Unit) :=
  .perform (.rename (store.tempPath snapshot.reference) (store.path snapshot.reference))
    fun (answer : Except DiskFault Unit) =>
      match answer with
      | .ok _ => reportingProgram store snapshot
      | .error fault =>
          clearingProgram store snapshot (.io ("Failed to rename temp file: " ++ fault.message))

/-- What is left to do once the file is there. -/
def fillingProgram : Program (Except Fault Unit) :=
  .perform (.append (store.tempPath snapshot.reference) (Utf8.encode snapshot.text))
    fun (answer : Except DiskFault Unit) =>
      match answer with
      | .ok _ => movingProgram store snapshot
      | .error fault => clearingProgram store snapshot (.io ("" ++ fault.message))

/-- The program of a stage. -/
def Stage.program : Stage → Program (Except Fault Unit)
  | .making => .perform (.create (store.tempPath snapshot.reference))
      fun (answer : Except DiskFault Unit) =>
        match answer with
        | .ok _ => fillingProgram store snapshot
        | .error fault =>
            clearingProgram store snapshot (.io ("Failed to create temp file: " ++ fault.message))
  | .filling => fillingProgram store snapshot
  | .moving => movingProgram store snapshot
  | .clearing fault => clearingProgram store snapshot fault
  | .reporting => reportingProgram store snapshot
  | .done result => .done result

theorem save_eq_making (hvalid : snapshot.validate = .ok ()) :
    store.save snapshot = Stage.making.program store snapshot := by
  rw [save, hvalid]
  refine congrArg (Program.perform _) (funext fun (answer : Except DiskFault Unit) => ?_)
  cases answer with
  | error fault => rfl
  | ok _ =>
      refine congrArg (Program.perform _) (funext fun (answer : Except DiskFault Unit) => ?_)
      cases answer with
      | error fault => rfl
      | ok _ =>
          refine congrArg (Program.perform _) (funext fun (answer : Except DiskFault Unit) => ?_)
          cases answer <;> rfl

/-! ## What the paths of a commentable hold -/

/-- What is under the first name of a snapshot, and what under its own. -/
structure Held where
  first : Option Utf8.Bytes
  final : Option Utf8.Bytes

/-- What the two paths of a commentable hold. -/
def held (store : Store) (ref : Reference) (world : World) : Held :=
  { first := world.content? (store.tempPath ref), final := world.content? (store.path ref) }

/-- Where the two paths of a commentable lead. -/
def WritesAt (store : Store) (ref : Reference) (world : World) (location : Location) : Prop :=
  world.disk.leadsTo world.working (store.tempPath ref) = .ok location ∨
    world.disk.leadsTo world.working (store.path ref) = .ok location

/-- What one action of a save comes to, told by what the two paths hold. -/
inductive Stage.Advances (text : Utf8.Bytes) : Stage → Held → Stage → Held → Prop
  | made (held : Held) : Advances text .making held .filling { held with first := some [] }
  | unmade (held : Held) (first : Option Utf8.Bytes) (fault : Fault) :
      Advances text .making held (.clearing fault) { held with first := first }
  | filled {held : Held} {former : Utf8.Bytes} (h : held.first = some former) :
      Advances text .filling held .moving { held with first := some (former ++ text) }
  | unfilled (held : Held) (first : Option Utf8.Bytes) (fault : Fault) :
      Advances text .filling held (.clearing fault) { held with first := first }
  | moved {held : Held} {bytes : Utf8.Bytes} (h : held.first = some bytes) :
      Advances text .moving held .reporting { first := none, final := some bytes }
  | unmoved (held : Held) (fault : Fault) : Advances text .moving held (.clearing fault) held
  | cleared (held : Held) (fault : Fault) :
      Advances text (.clearing fault) held (.done (.error fault)) { held with first := none }
  | reported (held : Held) : Advances text .reporting held (.done (.ok ())) held

/-! ## One action of a save -/

variable {store : Store} {snapshot : Snapshot} {ref : Reference} {world after : World}
  {disk : Disk}

/-- A change under the first name leaves what is under the other. -/
theorem held_of_differs (h : DiffersOnlyAt world.disk disk
    (world.disk.leadsTo world.working (store.tempPath ref) = .ok ·)) :
    store.held ref { world with disk := disk } =
      { store.held ref world with
        first := World.content? { world with disk := disk } (store.tempPath ref) } := by
  have hfinal : World.content? { world with disk := disk } (store.path ref) =
      world.content? (store.path ref) :=
    World.content?_eq h rfl fun location hlocation horigin =>
      ne_of_leadsTo horigin hlocation rfl
  rw [held, hfinal]
  rfl

/-- What is held depends on the disk alone. -/
theorem held_of_events (events : List Event) :
    store.held ref { world with events := events } = store.held ref world := by
  simp only [held, World.content?]

theorem held_of_rename (h : world.disk.rename world.working (store.tempPath ref)
    (store.path ref) = .ok disk) :
    DiffersOnlyAt world.disk disk (store.WritesAt ref world) ∧
      ∃ bytes, (store.held ref world).first = some bytes ∧
        store.held ref { world with disk := disk } = { first := none, final := some bytes } := by
  obtain ⟨origin, location, bytes, horigin, hbytes, hlocation, hfile, hgone, hdiffers⟩ :=
    rename_spec h
  refine ⟨hdiffers, bytes, World.content?_eq_some_iff.mpr ⟨origin, horigin, hbytes⟩, ?_⟩
  have hfirst : World.content? { world with disk := disk } (store.tempPath ref) = none := by
    refine World.content?_eq_none_iff.mpr fun place hplace => ?_
    rw [hdiffers.leadsTo_eq_ok_iff.mp hplace] at horigin
    obtain rfl := Except.ok.inj horigin
    exact hgone (ne_of_leadsTo (hdiffers.leadsTo_eq_ok_iff.mp hplace) hlocation)
  have hfinal : World.content? { world with disk := disk } (store.path ref) = some bytes :=
    World.content?_eq_some_iff.mpr ⟨location, hdiffers.leadsTo_eq_ok_iff.mpr hlocation, hfile⟩
  rw [held, hfirst, hfinal]

/-- What one action of a save comes to. -/
structure Comes (store : Store) (snapshot : Snapshot) (stage : Stage) (world : World)
    (next : Stage) (after : World) : Prop where
  advances : stage.Advances (Utf8.encode snapshot.text) (store.held snapshot.reference world)
    next (store.held snapshot.reference after)
  working : after.working = world.working
  differs : DiffersOnlyAt world.disk after.disk (store.WritesAt snapshot.reference world)

theorem exists_comes_making {program : Program (Except Fault Unit)}
    (h : (Stage.making.program store snapshot).Step world program after) :
    ∃ next, program = next.program store snapshot ∧
      store.Comes snapshot .making world next after := by
  obtain ⟨answer, mishaps, rfl, hrun, -⟩ := Program.Step.cases h
  rcases Program.runsTo_create hrun with ⟨rfl, -, disk, hdisk, rfl⟩ |
    ⟨⟨fault, rfl⟩, rfl | ⟨disk, hdisk, rfl⟩⟩
  · obtain ⟨location, -, -, hdiffers⟩ := create_spec hdisk
    refine ⟨.filling, rfl, ?_, rfl, hdiffers.mono fun _ => Or.inl⟩
    rw [held_of_differs hdiffers, World.content?_of_create hdisk]
    exact .made _
  · exact ⟨.clearing _, rfl, .unmade _ _ _, rfl, .refl _ _⟩
  · obtain ⟨location, -, -, hdiffers⟩ := create_spec hdisk
    refine ⟨.clearing _, rfl, ?_, rfl, hdiffers.mono fun _ => Or.inl⟩
    rw [held_of_differs hdiffers]
    exact .unmade _ _ _

theorem exists_comes_filling {program : Program (Except Fault Unit)}
    (h : (Stage.filling.program store snapshot).Step world program after) :
    ∃ next, program = next.program store snapshot ∧
      store.Comes snapshot .filling world next after := by
  obtain ⟨answer, mishaps, rfl, hrun, -⟩ := Program.Step.cases h
  rcases Program.runsTo_append hrun with ⟨rfl, -, disk, hdisk, rfl⟩ |
    ⟨⟨fault, rfl⟩, rfl | ⟨written, disk, hdisk, rfl⟩⟩
  · obtain ⟨-, -, -, -, -, hdiffers⟩ := append_spec hdisk
    obtain ⟨former, hformer, hwhole⟩ := World.content?_of_append hdisk
    refine ⟨.moving, rfl, ?_, rfl, hdiffers.mono fun _ => Or.inl⟩
    rw [held_of_differs hdiffers, hwhole]
    exact .filled hformer
  · exact ⟨.clearing _, rfl, .unfilled _ _ _, rfl, .refl _ _⟩
  · obtain ⟨-, -, -, -, -, hdiffers⟩ := append_spec hdisk
    refine ⟨.clearing _, rfl, ?_, rfl, hdiffers.mono fun _ => Or.inl⟩
    rw [held_of_differs hdiffers]
    exact .unfilled _ _ _

theorem exists_comes_moving {program : Program (Except Fault Unit)}
    (h : (Stage.moving.program store snapshot).Step world program after) :
    ∃ next, program = next.program store snapshot ∧
      store.Comes snapshot .moving world next after := by
  obtain ⟨answer, mishaps, rfl, hrun, -⟩ := Program.Step.cases h
  rcases Program.runsTo_rename hrun with ⟨rfl, -, disk, hdisk, rfl⟩ | ⟨⟨fault, rfl⟩, rfl⟩
  · obtain ⟨hdiffers, bytes, hfirst, hafter⟩ := held_of_rename hdisk
    refine ⟨.reporting, rfl, ?_, rfl, hdiffers⟩
    rw [hafter]
    exact .moved hfirst
  · exact ⟨.clearing _, rfl, .unmoved _ _, rfl, .refl _ _⟩

theorem exists_comes_clearing {fault : Fault} {program : Program (Except Fault Unit)}
    (h : ((Stage.clearing fault).program store snapshot).Step world program after) :
    ∃ next, program = next.program store snapshot ∧
      store.Comes snapshot (.clearing fault) world next after := by
  obtain ⟨answer, mishaps, rfl, hrun, hwell⟩ := Program.Step.cases h
  rcases Program.runsTo_remove hrun with ⟨disk, hdisk, rfl⟩ | ⟨rfl, hmishap | ⟨refusal, hrefused⟩⟩
  · obtain ⟨location, -, -, hdiffers⟩ := remove_spec hdisk
    refine ⟨.done (.error fault), rfl, ?_, rfl, hdiffers.mono fun _ => Or.inl⟩
    rw [held_of_differs hdiffers, World.content?_of_remove hdisk]
    exact .cleared _ _
  · exact absurd hmishap (hwell _)
  · refine ⟨.done (.error fault), rfl, ?_, rfl, .refl _ _⟩
    -- What the disk refuses to remove is not there.
    have hnone : (store.held snapshot.reference after).first = none :=
      World.content?_eq_none_iff.mpr fun _ => file?_eq_none_of_remove hrefused
    have hcleared := @Stage.Advances.cleared (Utf8.encode snapshot.text)
      (store.held snapshot.reference after) fault
    rwa [← hnone] at hcleared

theorem exists_comes_reporting {program : Program (Except Fault Unit)}
    (h : (Stage.reporting.program store snapshot).Step world program after) :
    ∃ next, program = next.program store snapshot ∧
      store.Comes snapshot .reporting world next after := by
  obtain ⟨answer, mishaps, rfl, hrun, -⟩ := Program.Step.cases h
  rcases Program.runsTo_act_iff.mp hrun with ⟨-, hanswer⟩ | ⟨-, hmishap⟩
  · cases hanswer
    refine ⟨.done (.ok ()), rfl, ?_, rfl, .refl _ _⟩
    rw [held_of_events (world.events ++ [_])]
    exact .reported _
  · cases hmishap

/-- An action of a save leads from one stage to another. -/
theorem exists_comes {stage : Stage} {program : Program (Except Fault Unit)}
    (h : (stage.program store snapshot).Step world program after) :
    ∃ next, program = next.program store snapshot ∧
      store.Comes snapshot stage world next after := by
  cases stage with
  | making => exact exists_comes_making h
  | filling => exact exists_comes_filling h
  | moving => exact exists_comes_moving h
  | clearing fault => exact exists_comes_clearing h
  | reporting => exact exists_comes_reporting h
  | done result => exact absurd h Program.not_step_done

/-! ## Actions that go well -/

/-- Whether no directory stands where the files of a commentable go. -/
structure HasRoom (store : Store) (ref : Reference) (world : World) : Prop where
  first : ∃ origin, world.disk.leadsTo world.working (store.tempPath ref) = .ok origin ∧
    ¬ world.disk.IsDirectoryAt origin
  final : ∃ location, world.disk.leadsTo world.working (store.path ref) = .ok location ∧
    ¬ world.disk.IsDirectoryAt location

theorem HasRoom.of_differs {locations : Location → Prop} (h : store.HasRoom ref world)
    (hworking : after.working = world.working)
    (hdiffers : DiffersOnlyAt world.disk after.disk locations) : store.HasRoom ref after := by
  obtain ⟨⟨origin, horigin, hfree⟩, location, hlocation, hplace⟩ := h
  rw [← hworking] at horigin hlocation
  exact ⟨⟨origin, hdiffers.leadsTo_eq_ok_iff.mpr horigin, by rwa [hdiffers.isDirectoryAt_iff]⟩,
    location, hdiffers.leadsTo_eq_ok_iff.mpr hlocation, by rwa [hdiffers.isDirectoryAt_iff]⟩

/-- A file is made where there is room. -/
theorem HasRoom.make (h : store.HasRoom snapshot.reference world) :
    ∃ after, (Stage.making.program store snapshot).Step world
        (Stage.filling.program store snapshot) after ∧
      store.HasRoom snapshot.reference after ∧
      (store.held snapshot.reference after).first = some [] := by
  obtain ⟨origin, horigin, hfree⟩ := h.first
  obtain ⟨disk, hcreate, -, hdiffers⟩ := exists_create horigin hfree
  have hanswer : world.answer (.create (store.tempPath snapshot.reference)) =
      (.ok (), { world with disk := disk }) := Program.change_of_ok hcreate
  refine ⟨_, Program.Step.of_answer hanswer, h.of_differs rfl hdiffers, ?_⟩
  exact World.content?_of_create hcreate

/-- A text is added to the file that is there. -/
theorem HasRoom.fill {former : Utf8.Bytes} (h : store.HasRoom snapshot.reference world)
    (hformer : (store.held snapshot.reference world).first = some former) :
    ∃ after, (Stage.filling.program store snapshot).Step world
        (Stage.moving.program store snapshot) after ∧
      store.HasRoom snapshot.reference after ∧
      (store.held snapshot.reference after).first =
        some (former ++ Utf8.encode snapshot.text) := by
  obtain ⟨origin, horigin, hfile⟩ := World.content?_eq_some_iff.mp hformer
  obtain ⟨disk, happend, -, hdiffers⟩ :=
    exists_append horigin hfile (Utf8.encode snapshot.text)
  have hanswer : world.answer
      (.append (store.tempPath snapshot.reference) (Utf8.encode snapshot.text)) =
      (.ok (), { world with disk := disk }) := Program.change_of_ok happend
  refine ⟨_, Program.Step.of_answer hanswer, h.of_differs rfl hdiffers, ?_⟩
  obtain ⟨found, hfound, hwhole⟩ := World.content?_of_append happend
  obtain rfl := Option.some.inj (hformer.symm.trans hfound)
  exact hwhole

/-- The file that is there is moved, whoever wrote it. -/
theorem HasRoom.move {bytes : Utf8.Bytes} (h : store.HasRoom snapshot.reference world)
    (hbytes : (store.held snapshot.reference world).first = some bytes) :
    ∃ after, (Stage.moving.program store snapshot).Step world
        (Stage.reporting.program store snapshot) after ∧
      (store.held snapshot.reference after).final = some bytes := by
  obtain ⟨origin, horigin, hfile⟩ := World.content?_eq_some_iff.mp hbytes
  obtain ⟨location, hlocation, hplace⟩ := h.final
  obtain ⟨disk, hrename⟩ : ∃ disk, world.disk.rename world.working
      (store.tempPath snapshot.reference) (store.path snapshot.reference) = .ok disk :=
    ⟨_, rename_eq_ok_iff.mpr ⟨origin, location, bytes, horigin, hfile, hlocation, hplace, rfl⟩⟩
  have hanswer : world.answer
      (.rename (store.tempPath snapshot.reference) (store.path snapshot.reference)) =
      (.ok (), { world with disk := disk }) := Program.change_of_ok hrename
  refine ⟨_, Program.Step.of_answer hanswer, ?_⟩
  obtain ⟨-, found, hfound, hafter⟩ := held_of_rename hrename
  obtain rfl := Option.some.inj (hbytes.symm.trans hfound)
  rw [hafter]

theorem exists_report (store : Store) (snapshot : Snapshot) (world : World) :
    ∃ after, (Stage.reporting.program store snapshot).Step world
        ((Stage.done (.ok ())).program store snapshot) after ∧
      store.held snapshot.reference after = store.held snapshot.reference world :=
  ⟨_, .perform _ _ _, held_of_events _⟩

end Store

end Discussion
