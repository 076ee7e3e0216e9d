import Mathlib.Logic.Function.Basic
import Discussion.Proofs.Store.Saving

/-!
# The snapshots that a store keeps

A store keeps at most one snapshot for each commentable.  The directory of the store holds
the files of the snapshots and nothing else.  A save puts one snapshot in its place and a
deletion takes one away; the files of the others stay.
-/

namespace Discussion

open Disk

namespace Store

/-- A snapshot that a store can keep for a commentable. -/
structure CanKeep (store : Store) (ref : Reference) (snapshot : Snapshot) : Prop where
  reference_eq : snapshot.reference = ref
  valid : snapshot.validate = .ok ()
  pathFault?_eq : pathFault? (store.path ref) = none

/-- The directory at a location is that of a store and holds the files of the snapshots that
are kept. -/
structure Keeps (store : Store) (kept : Reference → Option Snapshot) (world : World)
    (place : Location) : Prop where
  leads : world.disk.leadsTo world.working store.directory = .ok place
  directory : world.disk.IsDirectoryAt place
  no_directory : ∀ name, ¬ world.disk.IsDirectoryAt (place ++ [name])
  file?_eq_some_iff : ∀ name bytes, world.disk.file? (place ++ [name]) = some bytes ↔
    ∃ ref snapshot, kept ref = some snapshot ∧ name = fileName ref ∧
      bytes = Utf8.encode snapshot.text
  canKeep : ∀ ref snapshot, kept ref = some snapshot → store.CanKeep ref snapshot

/-- Whether all snapshots that are kept are in range. -/
def AllInRange (kept : Reference → Option Snapshot) : Prop :=
  ∀ ref snapshot, kept ref = some snapshot → snapshot.InRange

namespace Keeps

variable {store : Store} {kept : Reference → Option Snapshot} {world next : World}
  {place : Location}

/-! ## What is found -/

theorem file?_fileName (h : store.Keeps kept world place) (ref : Reference) :
    world.disk.file? (place ++ [fileName ref]) =
      (kept ref).map fun snapshot => Utf8.encode snapshot.text := by
  cases hkept : kept ref with
  | some snapshot => exact (h.file?_eq_some_iff _ _).mpr ⟨ref, snapshot, hkept, rfl, rfl⟩
  | none =>
      refine Option.eq_none_iff_forall_ne_some.mpr fun bytes hbytes => ?_
      obtain ⟨other, snapshot, hother, hname, -⟩ := (h.file?_eq_some_iff _ _).mp hbytes
      rw [fileName_injective hname, hother] at hkept
      cases hkept

theorem file?_tempName (h : store.Keeps kept world place) (ref : Reference) :
    world.disk.file? (place ++ [tempName ref]) = none := by
  refine Option.eq_none_iff_forall_ne_some.mpr fun bytes hbytes => ?_
  obtain ⟨other, -, -, hname, -⟩ := (h.file?_eq_some_iff _ _).mp hbytes
  exact fileName_ne_tempName other ref hname.symm

theorem eq_of_leadsTo_path (h : store.Keeps kept world place) {ref : Reference}
    {location : Location}
    (hleads : world.disk.leadsTo world.working (store.path ref) = .ok location) :
    location = place ++ [fileName ref] :=
  eq_of_leadsTo_joinPath h.leads (isName_fileName ref) hleads

theorem eq_of_leadsTo_tempPath (h : store.Keeps kept world place) {ref : Reference}
    {location : Location}
    (hleads : world.disk.leadsTo world.working (store.tempPath ref) = .ok location) :
    location = place ++ [tempName ref] :=
  eq_of_leadsTo_joinPath h.leads (isName_tempName ref) hleads

theorem leadsTo_path (h : store.Keeps kept world place) {ref : Reference} {snapshot : Snapshot}
    (hkept : kept ref = some snapshot) :
    world.disk.leadsTo world.working (store.path ref) = .ok (place ++ [fileName ref]) :=
  leadsTo_joinPath h.leads h.directory (isName_fileName ref)
    (h.canKeep ref snapshot hkept).pathFault?_eq

theorem contains_path (h : store.Keeps kept world place) (ref : Reference) :
    world.disk.contains world.working (store.path ref) = (kept ref).isSome := by
  rw [Bool.eq_iff_iff, contains_iff]
  constructor
  · rintro ⟨location, hleads, hsome⟩
    obtain rfl := h.eq_of_leadsTo_path hleads
    rw [Ne, at?_eq_none_iff, h.file?_fileName ref] at hsome
    cases hkept : kept ref with
    | some snapshot => rfl
    | none => exact absurd ⟨by rw [hkept]; rfl, h.no_directory _⟩ hsome
  · intro hsome
    obtain ⟨snapshot, hkept⟩ := Option.isSome_iff_exists.mp hsome
    refine ⟨_, h.leadsTo_path hkept, ?_⟩
    rw [Ne, at?_eq_none_iff, h.file?_fileName ref, hkept]
    rintro ⟨hnone, -⟩
    cases hnone

theorem run_isStored (h : store.Keeps kept world place) (ref : Reference) :
    (store.isStored ref).run world = ((kept ref).isSome, world) := by
  rw [Store.run_isStored, h.contains_path]

theorem ofRead_path (h : store.Keeps kept world place) {ref : Reference} {snapshot : Snapshot}
    (hkept : kept ref = some snapshot) :
    Snapshot.ofRead (store.path ref) (world.disk.read world.working (store.path ref)) =
      snapshot.reread := by
  have hfile : world.disk.file? (place ++ [fileName ref]) = some (Utf8.encode snapshot.text) := by
    rw [h.file?_fileName, hkept]
    rfl
  rw [read_eq_ok_iff.mpr ⟨_, h.leadsTo_path hkept, hfile⟩]
  rfl

theorem value_load (h : store.Keeps kept world place) (ref : Reference) :
    ((store.load ref).run world).1 =
      match kept ref with
      | some snapshot => snapshot.reread
      | none => .error (.noCommentable ref) := by
  rw [(run_load store ref world).1, h.contains_path]
  cases hkept : kept ref with
  | some snapshot => exact h.ofRead_path hkept
  | none => rfl

/-! ## What is changed -/

theorem of_events (h : store.Keeps kept world place) (events : List Event) :
    store.Keeps kept { world with events := events } place :=
  ⟨h.leads, h.directory, h.no_directory, h.file?_eq_some_iff, h.canKeep⟩

/-- Changes elsewhere leave the snapshots as they were. -/
theorem congr (h : store.Keeps kept world place) (hworking : next.working = world.working)
    {locations : Location → Prop} (hdiffers : DiffersOnlyAt world.disk next.disk locations)
    (hfile : ∀ name, next.disk.file? (place ++ [name]) = world.disk.file? (place ++ [name])) :
    store.Keeps kept next place where
  leads := by
    rw [hworking]
    exact hdiffers.leadsTo_eq_ok_iff.mpr h.leads
  directory := (hdiffers.isDirectoryAt_iff place).mpr h.directory
  no_directory name := by
    rw [hdiffers.isDirectoryAt_iff]
    exact h.no_directory name
  file?_eq_some_iff name bytes := by
    rw [hfile]
    exact h.file?_eq_some_iff name bytes
  canKeep := h.canKeep

/-- A change of the file of one commentable leaves the others as they were. -/
theorem update (h : store.Keeps kept world place) (hworking : next.working = world.working)
    {locations : Location → Prop} (hdiffers : DiffersOnlyAt world.disk next.disk locations)
    {ref : Reference} {value : Option Snapshot}
    (hself : next.disk.file? (place ++ [fileName ref]) =
      value.map fun snapshot => Utf8.encode snapshot.text)
    (hother : ∀ name, name ≠ fileName ref →
      next.disk.file? (place ++ [name]) = world.disk.file? (place ++ [name]))
    (hvalue : ∀ snapshot, value = some snapshot → store.CanKeep ref snapshot) :
    store.Keeps (Function.update kept ref value) next place where
  leads := by
    rw [hworking]
    exact hdiffers.leadsTo_eq_ok_iff.mpr h.leads
  directory := (hdiffers.isDirectoryAt_iff place).mpr h.directory
  no_directory name := by
    rw [hdiffers.isDirectoryAt_iff]
    exact h.no_directory name
  file?_eq_some_iff name bytes := by
    by_cases hname : name = fileName ref
    · rw [hname, hself, Option.map_eq_some_iff]
      constructor
      · rintro ⟨snapshot, hsome, rfl⟩
        exact ⟨ref, snapshot, by rw [Function.update_self, hsome], rfl, rfl⟩
      · rintro ⟨other, snapshot, hsome, hsame, rfl⟩
        obtain rfl := fileName_injective hsame
        rw [Function.update_self] at hsome
        exact ⟨snapshot, hsome, rfl⟩
    · rw [hother name hname, h.file?_eq_some_iff]
      refine exists_congr fun other => exists_congr fun snapshot => ?_
      by_cases hsame : other = ref
      · rw [hsame]
        constructor <;> exact fun hfile => absurd hfile.2.1 hname
      · rw [Function.update_of_ne hsame]
  canKeep other snapshot hsome := by
    by_cases hsame : other = ref
    · subst hsame
      rw [Function.update_self] at hsome
      exact hvalue snapshot hsome
    · rw [Function.update_of_ne hsame] at hsome
      exact h.canKeep other snapshot hsome

theorem replaced (h : store.Keeps kept world place) {snapshot : Snapshot}
    (hvalid : snapshot.validate = .ok ()) (hworking : next.working = world.working)
    (hreplaced : store.HasReplaced snapshot world next) :
    store.Keeps (Function.update kept snapshot.reference (some snapshot)) next place := by
  obtain ⟨location, hlocation, hfile⟩ := hreplaced.written
  obtain ⟨origin, horigin, hgone⟩ := hreplaced.cleared
  have hfault : pathFault? (store.path snapshot.reference) = none :=
    ((leadsTo_joinPath_iff (isName_fileName _)).mp hlocation).1
  obtain rfl := h.eq_of_leadsTo_path hlocation
  obtain rfl := h.eq_of_leadsTo_tempPath horigin
  refine h.update hworking hreplaced.differs hfile (fun name hname => ?_) fun _ hsome => ?_
  · by_cases htemp : name = tempName snapshot.reference
    · rw [htemp, hgone, h.file?_tempName]
    · refine hreplaced.differs.file?_eq _ ?_
      rintro (hleads | hleads)
      · exact htemp (List.cons.inj (List.append_cancel_left (h.eq_of_leadsTo_tempPath hleads))).1
      · exact hname (List.cons.inj (List.append_cancel_left (h.eq_of_leadsTo_path hleads))).1
  · obtain rfl := Option.some.inj hsome
    exact ⟨rfl, hvalid, hfault⟩

/-- A save that succeeds puts a snapshot in the place of the former one. -/
theorem save_of_ok (h : store.Keeps kept world place) {snapshot : Snapshot} {u : Unit}
    (hrun : (store.save snapshot).run world = (.ok u, next)) :
    store.Keeps (Function.update kept snapshot.reference (some snapshot)) next place := by
  cases hvalid : snapshot.validate with
  | error fault =>
      rw [run_save_of_invalid store hvalid] at hrun
      cases hrun
  | ok valid =>
      rcases runsTo_save hvalid (Program.runsTo_nil_iff.mpr hrun) with
        ⟨-, -, hreplaced, disk, events, rfl⟩ | ⟨⟨fault, hfault⟩, -⟩
      · exact h.replaced hvalid rfl hreplaced
      · cases hfault

/-- The save of a valid snapshot is not refused where its names can be used. -/
theorem unrefused_save (h : store.Keeps kept world place) {snapshot : Snapshot}
    (hvalid : snapshot.validate = .ok ())
    (htemp : pathFault? (store.tempPath snapshot.reference) = none)
    (hpath : pathFault? (store.path snapshot.reference) = none) :
    (store.save snapshot).Unrefused world := by
  have horigin : world.disk.leadsTo world.working (store.tempPath snapshot.reference) =
      .ok (place ++ [tempName snapshot.reference]) :=
    leadsTo_joinPath h.leads h.directory (isName_tempName _) htemp
  have hlocation : world.disk.leadsTo world.working (store.path snapshot.reference) =
      .ok (place ++ [fileName snapshot.reference]) :=
    leadsTo_joinPath h.leads h.directory (isName_fileName _) hpath
  exact (unrefused_save_iff hvalid).mpr
    (unrefused_replace horigin (h.no_directory _) hlocation (h.no_directory _))

theorem exists_save (h : store.Keeps kept world place) {snapshot : Snapshot}
    (hvalid : snapshot.validate = .ok ())
    (htemp : pathFault? (store.tempPath snapshot.reference) = none)
    (hpath : pathFault? (store.path snapshot.reference) = none) :
    ∃ next, (store.save snapshot).run world = (.ok (), next) ∧
      store.Keeps (Function.update kept snapshot.reference (some snapshot)) next place := by
  have hwell : (store.save snapshot).Unrefused world := h.unrefused_save hvalid htemp hpath
  obtain ⟨u, hsaved⟩ := (failsIfRefused_save store hvalid world).mp hwell
  have hrun : (store.save snapshot).run world = (.ok u, ((store.save snapshot).run world).2) :=
    Prod.ext hsaved rfl
  exact ⟨_, hrun, h.save_of_ok hrun⟩

/-- A save that fails changes nothing that is kept. -/
theorem save_of_error (h : store.Keeps kept world place) {snapshot : Snapshot} {fault : Fault}
    (hrun : (store.save snapshot).run world = (.error fault, next)) :
    store.Keeps kept next place := by
  cases hvalid : snapshot.validate with
  | error fault =>
      rw [run_save_of_invalid store hvalid] at hrun
      cases hrun
      exact h
  | ok valid =>
      rcases runsTo_save hvalid (Program.runsTo_nil_iff.mpr hrun) with
        ⟨hok, -⟩ | ⟨-, ⟨disk, rfl⟩, hdiffers, hcleared⟩
      · cases hok
      · refine h.congr rfl hdiffers fun name => ?_
        by_cases hleads : world.disk.leadsTo world.working (store.tempPath snapshot.reference) =
            .ok (place ++ [name])
        · have hname := h.eq_of_leadsTo_tempPath hleads
          rw [hcleared List.not_mem_nil _ hleads, hname, h.file?_tempName]
        · exact hdiffers.file?_eq _ hleads

theorem delete_of_none (h : store.Keeps kept world place) {ref : Reference}
    (hkept : kept ref = none) :
    (store.delete ref).run world = (.error (.noCommentable ref), world) := by
  rw [delete, Program.run_bind, h.run_isStored, hkept]
  rfl

theorem delete_of_some (h : store.Keeps kept world place) {ref : Reference} {snapshot : Snapshot}
    (hkept : kept ref = some snapshot) :
    ∃ next, (store.delete ref).run world = (.ok (), next) ∧
      store.Keeps (Function.update kept ref none) next place := by
  have hleads := h.leadsTo_path hkept
  have hfile : world.disk.file? (place ++ [fileName ref]) = some (Utf8.encode snapshot.text) := by
    rw [h.file?_fileName, hkept]
    rfl
  obtain ⟨disk, hremove⟩ : ∃ disk, world.disk.remove world.working (store.path ref) = .ok disk :=
    ⟨_, remove_eq_ok_iff.mpr ⟨_, _, hleads, hfile, rfl⟩⟩
  obtain ⟨location, hlocation, hgone, hdiffers⟩ := remove_spec hremove
  obtain rfl := h.eq_of_leadsTo_path hlocation
  have hrun : (Program.remove (store.path ref)).run world = (.ok (), { world with disk := disk }) :=
    Program.change_of_ok hremove
  have hother : ∀ name, name ≠ fileName ref →
      disk.file? (place ++ [name]) = world.disk.file? (place ++ [name]) := by
    intro name hname
    refine hdiffers.file?_eq _ fun hleads => ?_
    exact hname (List.cons.inj (List.append_cancel_left (h.eq_of_leadsTo_path hleads))).1
  have hvalue : ∀ other, none = some other → store.CanKeep ref other := by
    intro other hsome
    cases hsome
  let last : World :=
    { world with
      disk := disk
      events := world.events ++ [.deletedSnapshot ref (store.path ref)] }
  have hworking : last.working = world.working := rfl
  refine ⟨last, ?_, h.update hworking hdiffers hgone hother hvalue⟩
  rw [delete, Program.run_bind, h.run_isStored, hkept, Option.isSome_some, if_pos rfl,
    Program.onSuccess, Program.run_bind, Program.orFault, Program.run_bind, hrun]
  rfl

end Keeps

/-- In an empty directory a store keeps nothing. -/
theorem exists_keeps_of_names {store : Store} {world : World}
    (h : world.disk.names world.working store.directory = .ok []) :
    ∃ place, store.Keeps (fun _ => none) world place := by
  obtain ⟨place, hleads, hdirectory⟩ := names_eq_ok h
  obtain ⟨names, hnames, -, hmem⟩ := names_of_isDirectoryAt hleads hdirectory
  obtain rfl := Except.ok.inj (h.symm.trans hnames)
  have hnone : ∀ name, world.disk.root.at? (place ++ [name]) = none := fun name =>
    Decidable.not_not.mp fun hsome => List.not_mem_nil ((hmem name).mpr hsome)
  refine ⟨place, hleads, hdirectory, fun name => (at?_eq_none_iff.mp (hnone name)).2, ?_, ?_⟩
  · intro name bytes
    rw [(at?_eq_none_iff.mp (hnone name)).1]
    simp
  · intro ref snapshot hsome
    cases hsome

end Store

end Discussion
