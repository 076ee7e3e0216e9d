import Discussion.Proofs.Disk.Suffix
import Discussion.Proofs.Settings.File

/-!
# What saving settings leaves alone

Saving settings makes directories and writes to the file of its path.  All other files stay, among
them those of the same path with a suffix.
-/

namespace Discussion

open Disk

/-- Whether a later world still has the directories of an earlier one and all its files, except the
one to which a path leads in the end. -/
structure World.ChangesOnly (path : String) (before after : World) : Prop where
  working : after.working = before.working
  isDirectoryAt : ∀ location, before.disk.IsDirectoryAt location →
    after.disk.IsDirectoryAt location
  file?_eq : ∀ location bytes, after.disk.leadsTo after.working path ≠ .ok location →
    before.disk.file? location = some bytes → after.disk.file? location = some bytes

namespace World.ChangesOnly

variable {path : String} {before after : World}

theorem of_extends (h : Extends before.disk after.disk)
    (hworking : after.working = before.working) : before.ChangesOnly path after :=
  ⟨hworking, h.isDirectoryAt, fun _ _ _ hfile => h.file?_eq hfile⟩

theorem of_disk_eq (h : after.disk = before.disk) (hworking : after.working = before.working) :
    before.ChangesOnly path after :=
  of_extends (h ▸ .refl before.disk) hworking

theorem of_differsOnlyAt (hworking : after.working = before.working)
    (h : DiffersOnlyAt before.disk after.disk (before.disk.leadsTo before.working path = .ok ·)) :
    before.ChangesOnly path after := by
  refine ⟨hworking, fun location => (h.isDirectoryAt_iff location).mpr, ?_⟩
  intro location bytes hnot hfile
  rw [h.file?_eq location fun hleads => hnot ?_]
  · exact hfile
  · rw [hworking]
    exact h.leadsTo_eq_ok_iff.mpr hleads

theorem leadsTo (h : before.ChangesOnly path after) {other : String} {location : Location}
    (hleads : before.disk.leadsTo before.working other = .ok location) :
    after.disk.leadsTo after.working other = .ok location := by
  rw [h.working]
  exact leadsTo_of_isDirectoryAt h.isDirectoryAt hleads

theorem trans {third : World} (h : before.ChangesOnly path after)
    (h' : after.ChangesOnly path third) : before.ChangesOnly path third := by
  refine ⟨h'.working.trans h.working, fun location hdirectory =>
    h'.isDirectoryAt location (h.isDirectoryAt location hdirectory), ?_⟩
  intro location bytes hnot hfile
  -- Directories only grow, so the path leads nowhere else in between.
  have hnot' : after.disk.leadsTo after.working path ≠ .ok location :=
    fun hleads => hnot (h'.leadsTo hleads)
  exact h'.file?_eq location bytes hnot (h.file?_eq location bytes hnot' hfile)

/-- What the path with a suffix holds stays. -/
theorem content?_append (h : before.ChangesOnly path after) {suffix : String}
    {bytes : Utf8.Bytes} (hsuffix : '/' ∉ suffix.toList) (hlong : 2 < suffix.toList.length)
    (hheld : before.content? (path ++ suffix) = some bytes) :
    after.content? (path ++ suffix) = some bytes := by
  obtain ⟨location, hleads, hfile⟩ := content?_eq_some_iff.mp hheld
  have hafter := h.leadsTo hleads
  refine content?_eq_some_iff.mpr ⟨location, hafter, h.file?_eq location bytes ?_ hfile⟩
  intro hpath
  have hempty : "" ≠ suffix := by
    rintro rfl
    exact absurd hlong (by decide)
  rw [← String.append_empty (s := path)] at hpath
  exact ne_of_leadsTo_append (by simp) hsuffix hlong hempty hpath hafter rfl

end World.ChangesOnly

/-- Whether an action looks or talks, makes a directory, or writes to a path. -/
def Program.IsWriting (path : String) (action : Action) : Prop :=
  Program.IsMaking action ∨ action.IsTalk ∨ action = .create path ∨
    ∃ bytes, action = .append path bytes

theorem World.changesOnly_answer {path : String} {action : Action}
    (h : Program.IsWriting path action) (world : World) :
    world.ChangesOnly path (world.answer action).2 := by
  rcases h with hmaking | htalk | rfl | ⟨bytes, rfl⟩
  · obtain ⟨hextends, hworking⟩ := (Program.does_act hmaking).run_of_isMaking world
    exact .of_extends hextends hworking
  · cases action with
    | report | print | printError => exact .of_disk_eq rfl rfl
    | _ => exact htalk.elim
  · rcases Program.change_cases (Prod.eta (world.answer (.create path))).symm with
      ⟨-, disk, hdisk, hlast⟩ | ⟨-, -, -, hlast⟩
    · rw [hlast]
      obtain ⟨-, -, -, hdiffers⟩ := create_spec hdisk
      exact .of_differsOnlyAt rfl hdiffers
    · rw [hlast]
      exact .of_disk_eq rfl rfl
  · rcases Program.change_cases (Prod.eta (world.answer (.append path bytes))).symm with
      ⟨-, disk, hdisk, hlast⟩ | ⟨-, -, -, hlast⟩
    · rw [hlast]
      obtain ⟨-, -, -, -, -, hdiffers⟩ := append_spec hdisk
      exact .of_differsOnlyAt rfl hdiffers
    · rw [hlast]
      exact .of_disk_eq rfl rfl

theorem Program.Does.changesOnly {α : Type} {program : Program α} {path : String}
    (h : program.Does (Program.IsWriting path)) (world : World) :
    world.ChangesOnly path (program.run world).2 :=
  h.run (World.ChangesOnly path) (fun _ => .of_disk_eq rfl rfl) (fun h h' => h.trans h')
    (fun _ world h => world.changesOnly_answer h) world

theorem Settings.does_save (settings : Settings) (path : String) :
    (settings.save path).Does (Program.IsWriting path) := by
  rw [save]
  split
  · exact Program.does_pure _
  · refine Program.does_onSuccess ((does_makeParent path).mono fun _ => Or.inl) fun _ => ?_
    split
    · exact Program.does_pure _
    · refine Program.does_onSuccess (Program.does_onSuccess ?_ fun _ => ?_) fun _ => ?_
      · exact Program.does_orFault (Program.does_act (Or.inr (Or.inr (Or.inl rfl)))) ""
      · exact Program.does_orFault (Program.does_act (Or.inr (Or.inr (Or.inr ⟨_, rfl⟩)))) ""
      · exact Program.does_bind (Program.does_act (Or.inr (Or.inl trivial))) fun _ =>
          Program.does_pure _

end Discussion
