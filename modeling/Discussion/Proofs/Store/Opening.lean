import Discussion.Proofs.Disk.Change
import Discussion.Proofs.Program.Acting
import Discussion.Proofs.Program.Running
import Discussion.Proofs.Store.Names

/-!
# Opening a store

The directory of the snapshots is made if it is missing.  Nothing that was on the disk is
lost, and in an empty directory the new one holds nothing.
-/

namespace Discussion

open Disk

namespace Program

/-- Whether an action looks, reports or makes a directory. -/
def IsMaking (action : Action) : Prop :=
  action.IsLook ∨ ∃ path, action = .makeDirectory path

theorem does_makeDirectory (path : String) : (makeDirectory path).Does IsMaking :=
  does_act (Or.inr ⟨path, rfl⟩)

theorem does_unlessDirectory {path : String} {fault : DiskFault}
    {next : Program (Except DiskFault Unit)} (h : next.Does IsMaking) :
    (unlessDirectory path fault next).Does IsMaking := by
  refine does_bind (does_act (Or.inl trivial)) fun there => ?_
  cases there with
  | true => exact h
  | false => exact does_pure _

theorem does_makeEach (paths : List String) : (makeEach paths).Does IsMaking := by
  induction paths with
  | nil => exact does_pure _
  | cons path paths ih =>
      refine does_bind (does_makeDirectory path) fun answer => ?_
      cases answer with
      | ok u => exact ih
      | error fault => exact does_unlessDirectory ih

theorem does_makeOutwards (inside outside : List String) :
    (makeOutwards inside outside).Does IsMaking := by
  induction outside generalizing inside with
  | nil => exact does_makeEach inside
  | cons path outside ih =>
      refine does_bind (does_makeDirectory path) fun answer => ?_
      cases answer with
      | ok u => exact does_makeEach inside
      | error fault =>
          cases fault with
          | missing => exact ih (path :: inside)
          | _ => exact does_unlessDirectory (does_makeEach inside)

theorem does_makeDirectories (path : String) : (makeDirectories path).Does IsMaking := by
  rw [makeDirectories]
  split
  · exact does_pure _
  · exact does_makeOutwards _ _

/-- Making directories takes nothing away. -/
theorem Does.run_of_isMaking {α : Type} {program : Program α} (h : program.Does IsMaking)
    (world : World) :
    Extends world.disk (program.run world).2.disk ∧
      (program.run world).2.working = world.working := by
  refine h.run (fun before after => Extends before.disk after.disk ∧
    after.working = before.working) (fun world => ⟨.refl _, rfl⟩) ?_ ?_ world
  · rintro first second third ⟨hfirst, hworking⟩ ⟨hsecond, hworking'⟩
    exact ⟨hfirst.trans hsecond, hworking'.trans hworking⟩
  · rintro action world (hlook | ⟨path, rfl⟩)
    · obtain ⟨events, hevents⟩ := world.answer_of_isLook hlook
      rw [hevents]
      exact ⟨.refl _, rfl⟩
    · rcases change_cases (Prod.eta (world.answer (.makeDirectory path))).symm with
        ⟨-, disk, hmake, hlast⟩ | ⟨fault, -, -, hlast⟩
      · rw [hlast]
        exact ⟨makeDirectory_spec hmake, rfl⟩
      · rw [hlast]
        exact ⟨.refl _, rfl⟩

theorem run_makeDirectories_of_ok {path : String} {world last : World} (hpath : pathsTo path ≠ [])
    (hmake : (makeDirectory path).run world = (.ok (), last)) :
    (makeDirectories path).run world = (.ok (), last) := by
  rw [makeDirectories, if_neg hpath, makeOutwards, run_bind, hmake]
  rfl

/-- A directory that is refused is not made, unless it lies in a missing one or is there. -/
theorem run_makeDirectories_of_error {path : String} {world last : World} {fault : DiskFault}
    (hpath : pathsTo path ≠ []) (hmissing : fault ≠ .missing)
    (hmake : (makeDirectory path).run world = (.error fault, last))
    (hnot : (isDirectory path).run last = (false, last)) :
    (makeDirectories path).run world = (.error fault, last) := by
  have hunless : (unlessDirectory path fault (makeEach [])).run last = (.error fault, last) := by
    rw [unlessDirectory, run_bind, hnot]
    rfl
  rw [makeDirectories, if_neg hpath, makeOutwards, run_bind, hmake]
  cases fault with
  | missing => exact absurd rfl hmissing
  | _ => exact hunless

end Program

namespace Store

theorem run_openAt_of_not_contains {base : String} {world last : World}
    {made : Except DiskFault Unit}
    (hnot : world.disk.contains world.working (joinPath base "snapshots") = false)
    (hmade : (Program.makeDirectories (joinPath base "snapshots")).run world = (made, last)) :
    (openAt base).run world =
      match made with
      | .ok _ => (.ok { base := base },
          { last with events := last.events ++ [.createdDirectory (joinPath base "snapshots")] })
      | .error fault =>
          (.error (.io ("Failed to create snapshots directory: " ++ fault.message)), last) := by
  have hexists : (Program.pathExists (directory { base := base })).run world = (false, world) :=
    congrArg (·, world) hnot
  have hmade' : (Program.makeDirectories (directory { base := base })).run world = (made, last) :=
    hmade
  rw [openAt, Program.run_bind, hexists, if_neg Bool.false_ne_true, Program.onSuccess,
    Program.run_bind, Program.orFault, Program.run_bind, hmade']
  cases made <;> rfl

theorem run_openAt_of_contains {base : String} {world : World}
    (h : world.disk.contains world.working (joinPath base "snapshots") = true) :
    (openAt base).run world = (.ok { base := base }, world) := by
  have hexists : (Program.pathExists (directory { base := base })).run world = (true, world) :=
    congrArg (·, world) h
  rw [openAt, Program.run_bind, hexists, if_pos rfl]
  rfl

/-- Opening a store takes nothing from the disk. -/
theorem extends_of_run_openAt {base : String} {result : Except Fault Store}
    {world opened : World} (h : (openAt base).run world = (result, opened)) :
    Extends world.disk opened.disk ∧ opened.working = world.working := by
  have hdoes : (openAt base).Does Program.IsMaking := by
    refine Program.does_bind (Program.does_act (Or.inl trivial)) fun there => ?_
    cases there with
    | true => exact Program.does_pure _
    | false =>
        refine Program.does_onSuccess
          (Program.does_orFault (Program.does_makeDirectories _) _) fun _ => ?_
        exact Program.does_bind (Program.does_act (Or.inl trivial)) fun _ => Program.does_pure _
  have hrun := hdoes.run_of_isMaking world
  rwa [h] at hrun

/-- A missing directory in one that is there is made. -/
theorem run_openAt_of_missing {base : String} {world : World} {location : Location}
    (h : world.disk.leadsTo world.working (joinPath base "snapshots") = .ok location)
    (hnone : world.disk.root.at? location = none) :
    (openAt base).run world = (.ok { base := base },
      { world with
        disk := world.disk.putDirectory location
        events := world.events ++ [.createdDirectory (joinPath base "snapshots")] }) := by
  have hmissing : world.disk.contains world.working (joinPath base "snapshots") = false := by
    rw [Bool.eq_false_iff, Ne, contains_iff]
    rintro ⟨place, hplace, hsome⟩
    obtain rfl := Except.ok.inj (h.symm.trans hplace)
    exact hsome hnone
  have hmake : (Program.makeDirectory (joinPath base "snapshots")).run world =
      (.ok (), { world with disk := world.disk.putDirectory location }) :=
    Program.change_of_ok (makeDirectory_joinPath isName_snapshots h hnone)
  exact run_openAt_of_not_contains hmissing
    (Program.run_makeDirectories_of_ok (pathsTo_joinPath_ne_nil isName_snapshots base) hmake)

/-- A directory whose path is refused is not made. -/
theorem run_openAt_of_pathFault {base : String} {world : World} {fault : DiskFault}
    (h : pathFault? (joinPath base "snapshots") = some fault) :
    ∃ refusal, (openAt base).run world = (.error refusal, world) := by
  have hrefused : ∀ names, world.disk.follow world.working (joinPath base "snapshots") names =
      .error fault := by
    intro names
    rw [follow, h]
  have hfind : world.disk.find world.working (joinPath base "snapshots") = .error fault := by
    rw [find, locate, hrefused]
    rfl
  have hcontains : world.disk.contains world.working (joinPath base "snapshots") = false := by
    rw [contains, hfind]
  have hisDirectory : world.disk.isDirectory world.working (joinPath base "snapshots") = false := by
    rw [Disk.isDirectory, hfind]
  have hmakeDirectory : world.disk.makeDirectory world.working (joinPath base "snapshots") =
      .error fault := by
    rw [makeDirectory, hrefused]
    rfl
  have hmissing : fault ≠ .missing := by
    rintro rfl
    exact pathFault?_ne_missing (joinPath_ne_empty isName_snapshots base) h
  have hmade := Program.run_makeDirectories_of_error
    (pathsTo_joinPath_ne_nil isName_snapshots base) hmissing
    (congrArg world.change hmakeDirectory) (congrArg (·, world) hisDirectory)
  exact ⟨_, run_openAt_of_not_contains hcontains hmade⟩

/-- A store that is opened on an empty directory holds nothing. -/
theorem names_directory_of_openAt {base : String} {store : Store} {world opened : World}
    (hempty : world.disk.names world.working base = .ok [])
    (hopen : (openAt base).run world = (.ok store, opened)) :
    opened.disk.names opened.working store.directory = .ok [] := by
  obtain ⟨place, hleads, hdirectory⟩ := names_eq_ok hempty
  obtain ⟨names, hnames, -, hmem⟩ := names_of_isDirectoryAt hleads hdirectory
  obtain rfl := Except.ok.inj (hempty.symm.trans hnames)
  have hnone : world.disk.root.at? (place ++ ["snapshots"]) = none :=
    Decidable.not_not.mp fun hsome => List.not_mem_nil ((hmem "snapshots").mpr hsome)
  cases hfault : pathFault? (joinPath base "snapshots") with
  | some fault =>
      obtain ⟨refusal, hrefusal⟩ := @run_openAt_of_pathFault base world fault hfault
      rw [hopen] at hrefusal
      cases hrefusal
  | none =>
      have hpath := leadsTo_joinPath hleads hdirectory isName_snapshots hfault
      rw [run_openAt_of_missing hpath hnone] at hopen
      cases hopen
      have hmay : world.disk.MayHoldFile (place ++ ["snapshots"]) :=
        ⟨(at?_eq_none_iff.mp hnone).2, place, "snapshots", rfl, hdirectory⟩
      obtain ⟨hmade, hextends⟩ := putDirectory_spec hmay (at?_eq_none_iff.mp hnone).1
      have hpath' := leadsTo_of_isDirectoryAt hextends.isDirectoryAt hpath
      obtain ⟨inside, hinside, -, hall⟩ := names_of_isDirectoryAt hpath' ⟨.empty, hmade⟩
      refine hinside.trans (congrArg Except.ok (List.eq_nil_iff_forall_not_mem.mpr ?_))
      intro name hname
      refine (hall name).mp hname ?_
      rw [Folder.at?_append, hmade]
      rfl

end Store

end Discussion
