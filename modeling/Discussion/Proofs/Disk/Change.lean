import Discussion.Proofs.Disk.View

/-!
# What operations change on a disk

An operation on a file changes what one location holds, and no directory.  Where a path
leads depends on the directories alone, so all paths lead where they led before.
-/

namespace Discussion

namespace Folder

/-- An assignment further inside leaves a directory a directory. -/
theorem at?_assignAt_above {folder inside : Folder} {above rest : Location}
    (hrest : rest ≠ []) (h : folder.at? above = some (.directory inside)) (entry : Option Entry) :
    (folder.assignAt entry (above ++ rest)).at? above =
      some (.directory (inside.assignAt entry rest)) := by
  induction above generalizing folder with
  | nil =>
      cases h
      rfl
  | cons name above ih =>
      obtain ⟨next, others, hnext⟩ : ∃ next others, above ++ rest = next :: others :=
        List.exists_cons_of_ne_nil (by simp [hrest])
      obtain ⟨around, haround⟩ : ∃ around, folder.get? name = some (.directory around) := by
        rw [at?_cons] at h
        cases hentry : folder.get? name with
        | none => simp [hentry] at h
        | some found =>
            cases found with
            | directory around => exact ⟨around, rfl⟩
            | file bytes =>
                rw [hentry] at h
                cases above with
                | nil => cases h
                | cons second others => cases h
      rw [at?_cons_of_directory above haround] at h
      have hinner := ih h
      have hstep : folder.assignAt entry (name :: next :: others) =
          folder.assign name (some (.directory (around.assignAt entry (next :: others)))) := by
        rw [assignAt, haround]
      have hnew : (folder.assign name
          (some (.directory (around.assignAt entry (next :: others))))).get? name =
          some (.directory (around.assignAt entry (next :: others))) := by
        rw [get?_assign, if_pos rfl]
      rw [List.cons_append, hnext, hstep, at?_cons_of_directory above hnew, ← hnext, hinner]

end Folder

namespace Disk

/-! ## What operations change -/

theorem create_eq_ok_iff {disk after : Disk} {working : Location} {path : String} :
    disk.create working path = .ok after ↔
      ∃ location, disk.leadsTo working path = .ok location ∧ ¬ disk.IsDirectoryAt location ∧
        after = disk.putFile location [] := by
  refine Iff.trans bind_eq_ok_iff ?_
  constructor
  · rintro ⟨location, hlocate, hok⟩
    obtain ⟨hleads, hnot⟩ := locateFile_eq_ok_iff.mp hlocate
    exact ⟨location, hleads, hnot, (Except.ok.inj hok).symm⟩
  · rintro ⟨location, hleads, hnot, rfl⟩
    exact ⟨location, locateFile_eq_ok_iff.mpr ⟨hleads, hnot⟩, rfl⟩

theorem append_eq_ok_iff {disk after : Disk} {working : Location} {path : String}
    {bytes : Utf8.Bytes} :
    disk.append working path bytes = .ok after ↔
      ∃ location former, disk.leadsTo working path = .ok location ∧
        disk.file? location = some former ∧ after = disk.putFile location (former ++ bytes) := by
  refine Iff.trans bind_eq_ok_iff ?_
  constructor
  · rintro ⟨⟨location, entry⟩, hfind, hok⟩
    obtain ⟨hleads, hentry⟩ := find_eq_ok_iff.mp hfind
    cases entry with
    | directory inside => cases hok
    | file former =>
        exact ⟨location, former, hleads, file?_eq_some_iff.mpr hentry, (Except.ok.inj hok).symm⟩
  · rintro ⟨location, former, hleads, hfile, rfl⟩
    exact ⟨_, find_eq_ok_iff.mpr ⟨hleads, file?_eq_some_iff.mp hfile⟩, rfl⟩

theorem rename_eq_ok_iff {disk after : Disk} {working : Location} {source target : String} :
    disk.rename working source target = .ok after ↔
      ∃ origin location bytes, disk.leadsTo working source = .ok origin ∧
        disk.file? origin = some bytes ∧ disk.leadsTo working target = .ok location ∧
        ¬ disk.IsDirectoryAt location ∧ after = (disk.erase origin).putFile location bytes := by
  refine Iff.trans bind_eq_ok_iff ?_
  constructor
  · rintro ⟨⟨origin, entry⟩, hfind, hok⟩
    obtain ⟨hleads, hentry⟩ := find_eq_ok_iff.mp hfind
    cases entry with
    | directory inside => cases hok
    | file bytes =>
        obtain ⟨location, hlocate, hok⟩ := bind_eq_ok_iff.mp hok
        obtain ⟨htarget, hnot⟩ := locateFile_eq_ok_iff.mp hlocate
        exact ⟨origin, location, bytes, hleads, file?_eq_some_iff.mpr hentry, htarget, hnot,
          (Except.ok.inj hok).symm⟩
  · rintro ⟨origin, location, bytes, hleads, hfile, htarget, hnot, rfl⟩
    refine ⟨_, find_eq_ok_iff.mpr ⟨hleads, file?_eq_some_iff.mp hfile⟩, ?_⟩
    exact bind_eq_ok_iff.mpr ⟨location, locateFile_eq_ok_iff.mpr ⟨htarget, hnot⟩, rfl⟩

theorem remove_eq_ok_iff {disk after : Disk} {working : Location} {path : String} :
    disk.remove working path = .ok after ↔
      ∃ location bytes, disk.leadsTo working path = .ok location ∧
        disk.file? location = some bytes ∧ after = disk.erase location := by
  refine Iff.trans bind_eq_ok_iff ?_
  constructor
  · rintro ⟨⟨location, entry⟩, hfind, hok⟩
    obtain ⟨hleads, hentry⟩ := find_eq_ok_iff.mp hfind
    cases entry with
    | directory inside => cases hok
    | file bytes =>
        exact ⟨location, bytes, hleads, file?_eq_some_iff.mpr hentry, (Except.ok.inj hok).symm⟩
  · rintro ⟨location, bytes, hleads, hfile, rfl⟩
    exact ⟨_, find_eq_ok_iff.mpr ⟨hleads, file?_eq_some_iff.mp hfile⟩, rfl⟩

theorem copy_eq_ok_iff {disk after : Disk} {working : Location} {source target : String} :
    disk.copy working source target = .ok after ↔
      ∃ origin location bytes, disk.leadsTo working source = .ok origin ∧
        disk.file? origin = some bytes ∧ disk.leadsTo working target = .ok location ∧
        ¬ disk.IsDirectoryAt location ∧ after = disk.putFile location bytes := by
  refine Iff.trans bind_eq_ok_iff ?_
  constructor
  · rintro ⟨⟨origin, entry⟩, hfind, hok⟩
    obtain ⟨hleads, hentry⟩ := find_eq_ok_iff.mp hfind
    cases entry with
    | directory inside => cases hok
    | file bytes =>
        obtain ⟨location, hlocate, hok⟩ := bind_eq_ok_iff.mp hok
        obtain ⟨htarget, hnot⟩ := locateFile_eq_ok_iff.mp hlocate
        exact ⟨origin, location, bytes, hleads, file?_eq_some_iff.mpr hentry, htarget, hnot,
          (Except.ok.inj hok).symm⟩
  · rintro ⟨origin, location, bytes, hleads, hfile, htarget, hnot, rfl⟩
    refine ⟨_, find_eq_ok_iff.mpr ⟨hleads, file?_eq_some_iff.mp hfile⟩, ?_⟩
    exact bind_eq_ok_iff.mpr ⟨location, locateFile_eq_ok_iff.mpr ⟨htarget, hnot⟩, rfl⟩

/-- A disk that differs from an earlier one only in the files at some locations. -/
structure DiffersOnlyAt (before after : Disk) (locations : Location → Prop) : Prop where
  file?_eq : ∀ location, ¬ locations location → after.file? location = before.file? location
  isDirectoryAt_iff : ∀ location, after.IsDirectoryAt location ↔ before.IsDirectoryAt location

namespace DiffersOnlyAt

theorem refl (disk : Disk) (locations : Location → Prop) : DiffersOnlyAt disk disk locations :=
  ⟨fun _ _ => rfl, fun _ => Iff.rfl⟩

theorem trans {first second third : Disk} {locations : Location → Prop}
    (h : DiffersOnlyAt first second locations) (h' : DiffersOnlyAt second third locations) :
    DiffersOnlyAt first third locations :=
  ⟨fun location hnot => (h'.file?_eq location hnot).trans (h.file?_eq location hnot),
    fun location => (h'.isDirectoryAt_iff location).trans (h.isDirectoryAt_iff location)⟩

theorem mono {before after : Disk} {locations more : Location → Prop}
    (h : DiffersOnlyAt before after locations)
    (hmore : ∀ location, locations location → more location) :
    DiffersOnlyAt before after more :=
  ⟨fun location hnot => h.file?_eq location fun hin => hnot (hmore location hin),
    h.isDirectoryAt_iff⟩

end DiffersOnlyAt

/-- Around a directory there are only directories. -/
theorem isDirectoryAt_of_append {disk : Disk} {above rest : Location}
    (h : disk.IsDirectoryAt (above ++ rest)) : disk.IsDirectoryAt above := by
  obtain ⟨inside, hinside⟩ := h
  rw [Folder.at?_append] at hinside
  obtain ⟨entry, hentry, hrest⟩ := Option.bind_eq_some_iff.mp hinside
  cases entry with
  | directory around => exact ⟨around, hentry⟩
  | file bytes =>
      cases rest with
      | nil => cases hrest
      | cons name rest => cases hrest

/-- Nothing lies below a location that holds no directory. -/
theorem at?_append_eq_none {disk : Disk} {location rest : Location}
    (h : ¬ disk.IsDirectoryAt location) (hrest : rest ≠ []) :
    disk.root.at? (location ++ rest) = none := by
  rw [Folder.at?_append]
  cases hentry : disk.root.at? location with
  | none => rfl
  | some entry =>
      cases entry with
      | directory inside => exact absurd ⟨inside, hentry⟩ h
      | file bytes =>
          obtain ⟨name, others, rfl⟩ := List.exists_cons_of_ne_nil hrest
          rfl

/-- A change at a location with nothing below it leaves what other locations hold, up to what
lies in the directories around. -/
theorem at?_assignAt_other {before after : Disk} {location other : Location}
    {entry : Option Entry} (hmay : before.MayHoldFile location)
    (hroot : after.root = before.root.assignAt entry location)
    (hbelow : ∀ rest, rest ≠ [] → after.root.at? (location ++ rest) = none)
    (hother : other ≠ location) :
    after.root.at? other = before.root.at? other ∨
      (after.IsDirectoryAt other ∧ before.IsDirectoryAt other) := by
  obtain ⟨hnot, outer, name, hlocation, houter⟩ := hmay
  -- The other location lies below this one, around it, or apart from it.
  by_cases hprefix : location <+: other
  · obtain ⟨rest, rfl⟩ := hprefix
    have hrest : rest ≠ [] := by
      rintro rfl
      exact hother (List.append_nil location)
    left
    rw [hbelow rest hrest, at?_append_eq_none hnot hrest]
  · by_cases habove : other <+: location
    · obtain ⟨rest, hrest⟩ := habove
      have hne : rest ≠ [] := by
        rintro rfl
        exact hother (by rw [← hrest, List.append_nil])
      have hdrop : outer = other ++ rest.dropLast := by
        rw [← List.dropLast_append_of_ne_nil hne, hrest, hlocation, List.dropLast_concat]
      obtain ⟨around, haround⟩ : before.IsDirectoryAt other :=
        isDirectoryAt_of_append (hdrop ▸ houter)
      right
      refine ⟨⟨around.assignAt entry rest, ?_⟩, around, haround⟩
      rw [hroot, ← hrest]
      exact Folder.at?_assignAt_above hne haround entry
    · left
      rw [hroot]
      exact Folder.at?_assignAt_of_apart entry hprefix habove

theorem at?_assignAt_of_mayHoldFile {before after : Disk} {location : Location}
    {entry : Option Entry} (hmay : before.MayHoldFile location)
    (hroot : after.root = before.root.assignAt entry location) :
    after.root.at? location = entry := by
  obtain ⟨-, outer, name, rfl, inside, hinside⟩ := hmay
  have hdrop : before.root.at? (outer ++ [name]).dropLast = some (.directory inside) := by
    rw [List.dropLast_concat]
    exact hinside
  rw [hroot]
  exact Folder.at?_assignAt_self entry (by simp) hdrop

/-- Where a file may be, another file may take its place, or none, and all else stays. -/
theorem differsOnlyAt_assignAt {before after : Disk} {location : Location}
    (content : Option Utf8.Bytes) (hmay : before.MayHoldFile location)
    (hroot : after.root = before.root.assignAt (content.map Entry.file) location) :
    after.file? location = content ∧ DiffersOnlyAt before after (· = location) := by
  have hself := at?_assignAt_of_mayHoldFile hmay hroot
  have hfile : after.file? location = content := by
    rw [file?, hself]
    cases content <;> rfl
  have hnotAfter : ¬ after.IsDirectoryAt location := by
    rintro ⟨found, hfound⟩
    rw [hself] at hfound
    cases content <;> cases hfound
  have hother : ∀ other, other ≠ location → after.root.at? other = before.root.at? other ∨
      (after.IsDirectoryAt other ∧ before.IsDirectoryAt other) := fun other =>
    at?_assignAt_other hmay hroot fun _ => at?_append_eq_none hnotAfter
  refine ⟨hfile, ?_, ?_⟩
  · intro other hdifferent
    rcases hother other hdifferent with hsame | ⟨⟨_, hafter⟩, _, hbefore⟩
    · rw [file?, file?, hsame]
    · rw [file?, file?, hafter, hbefore]
  · intro other
    by_cases hsame : other = location
    · rw [hsame]
      exact ⟨fun h => absurd h hnotAfter, fun h => absurd h hmay.not_directory⟩
    · rcases hother other hsame with hentry | ⟨hafter, hbefore⟩
      · rw [IsDirectoryAt, IsDirectoryAt, hentry]
      · exact ⟨fun _ => hbefore, fun _ => hafter⟩

theorem differsOnlyAt_putFile {disk : Disk} {location : Location} (h : disk.MayHoldFile location)
    (bytes : Utf8.Bytes) :
    (disk.putFile location bytes).file? location = some bytes ∧
      DiffersOnlyAt disk (disk.putFile location bytes) (· = location) :=
  differsOnlyAt_assignAt (some bytes) h rfl

theorem differsOnlyAt_erase {disk : Disk} {location : Location} (h : disk.MayHoldFile location) :
    (disk.erase location).file? location = none ∧
      DiffersOnlyAt disk (disk.erase location) (· = location) :=
  differsOnlyAt_assignAt none h rfl

/-- A disk that still has the files and directories of an earlier one. -/
structure Extends (before after : Disk) : Prop where
  file?_eq : ∀ {location bytes}, before.file? location = some bytes →
    after.file? location = some bytes
  isDirectoryAt : ∀ location, before.IsDirectoryAt location → after.IsDirectoryAt location

namespace Extends

theorem refl (disk : Disk) : Extends disk disk :=
  ⟨fun h => h, fun _ h => h⟩

theorem trans {first second third : Disk} (h : Extends first second)
    (h' : Extends second third) : Extends first third :=
  ⟨fun hfile => h'.file?_eq (h.file?_eq hfile),
    fun location hdirectory => h'.isDirectoryAt location (h.isDirectoryAt location hdirectory)⟩

end Extends

/-- A directory made where nothing is holds nothing, and nothing is lost. -/
theorem putDirectory_spec {disk : Disk} {location : Location} (hmay : disk.MayHoldFile location)
    (hnone : disk.file? location = none) :
    (disk.putDirectory location).root.at? location = some (.directory .empty) ∧
      Extends disk (disk.putDirectory location) := by
  have hself : (disk.putDirectory location).root.at? location = some (.directory .empty) :=
    at?_assignAt_of_mayHoldFile hmay rfl
  have hbelow : ∀ rest, rest ≠ [] →
      (disk.putDirectory location).root.at? (location ++ rest) = none := by
    intro rest hrest
    obtain ⟨name, others, rfl⟩ := List.exists_cons_of_ne_nil hrest
    rw [Folder.at?_append, hself]
    rfl
  refine ⟨hself, ?_, ?_⟩
  · intro other bytes hfile
    have hother : other ≠ location := by
      rintro rfl
      rw [hnone] at hfile
      cases hfile
    rcases at?_assignAt_other hmay rfl hbelow hother with hsame | ⟨-, hbefore⟩
    · rw [file?, hsame]
      exact hfile
    · exact absurd hbefore (not_isDirectoryAt_of_file? hfile)
  · intro other hdirectory
    have hother : other ≠ location := by
      rintro rfl
      exact hmay.not_directory hdirectory
    rcases at?_assignAt_other hmay rfl hbelow hother with hsame | ⟨hafter, -⟩
    · rw [IsDirectoryAt, hsame]
      exact hdirectory
    · exact hafter

/-! ## Paths after a change -/

theorem step_of_isDirectoryAt {before after : Disk}
    (h : ∀ location, before.IsDirectoryAt location → after.IsDirectoryAt location)
    {location next : Location} {name : String} (hstep : before.step location name = .ok next) :
    after.step location name = .ok next := by
  obtain ⟨hdirectory, hnext⟩ := step_eq_ok hstep
  obtain ⟨inside, hinside⟩ := h location hdirectory
  rw [step, hinside]
  exact hnext

theorem foldlM_step_of_isDirectoryAt {before after : Disk}
    (h : ∀ location, before.IsDirectoryAt location → after.IsDirectoryAt location)
    {start last : Location} {names : List String}
    (hsteps : names.foldlM before.step start = .ok last) :
    names.foldlM after.step start = .ok last := by
  induction names generalizing start with
  | nil => exact hsteps
  | cons name names ih =>
      rw [List.foldlM_cons] at hsteps ⊢
      obtain ⟨next, hnext, hrest⟩ := bind_eq_ok_iff.mp hsteps
      exact bind_eq_ok_iff.mpr ⟨next, step_of_isDirectoryAt h hnext, ih hrest⟩

/-- Where no directory is lost, paths lead where they led. -/
theorem leadsTo_of_isDirectoryAt {before after : Disk}
    (h : ∀ location, before.IsDirectoryAt location → after.IsDirectoryAt location)
    {working location : Location} {path : String}
    (hleads : before.leadsTo working path = .ok location) :
    after.leadsTo working path = .ok location := by
  rw [leadsTo] at hleads ⊢
  cases hfault : pathFault? path with
  | some fault =>
      rw [hfault] at hleads
      cases hleads
  | none =>
      rw [hfault] at hleads
      exact foldlM_step_of_isDirectoryAt h hleads

theorem Extends.read {before after : Disk} (h : Extends before after) {working : Location}
    {path : String} {bytes : Utf8.Bytes} (hread : before.read working path = .ok bytes) :
    after.read working path = .ok bytes := by
  obtain ⟨location, hleads, hfile⟩ := read_eq_ok_iff.mp hread
  exact read_eq_ok_iff.mpr
    ⟨location, leadsTo_of_isDirectoryAt h.isDirectoryAt hleads, h.file?_eq hfile⟩

/-- Where the directories are the same, paths lead to the same locations. -/
theorem DiffersOnlyAt.leadsTo_eq_ok_iff {before after : Disk} {locations : Location → Prop}
    (h : DiffersOnlyAt before after locations) {working location : Location} {path : String} :
    after.leadsTo working path = .ok location ↔ before.leadsTo working path = .ok location :=
  ⟨leadsTo_of_isDirectoryAt fun location => (h.isDirectoryAt_iff location).mp,
    leadsTo_of_isDirectoryAt fun location => (h.isDirectoryAt_iff location).mpr⟩

/-! ## Single operations -/

theorem mayHoldFile_of_file? {disk : Disk} {working location : Location} {path : String}
    {bytes : Utf8.Bytes} (h : disk.leadsTo working path = .ok location)
    (hfile : disk.file? location = some bytes) : disk.MayHoldFile location :=
  mayHoldFile_of_leadsTo h (not_isDirectoryAt_of_file? hfile)

theorem create_spec {disk after : Disk} {working : Location} {path : String}
    (h : disk.create working path = .ok after) :
    ∃ location, disk.leadsTo working path = .ok location ∧ after.file? location = some [] ∧
      DiffersOnlyAt disk after (disk.leadsTo working path = .ok ·) := by
  obtain ⟨location, hleads, hnot, rfl⟩ := create_eq_ok_iff.mp h
  obtain ⟨hfile, hdiffers⟩ := differsOnlyAt_putFile (mayHoldFile_of_leadsTo hleads hnot) []
  refine ⟨location, hleads, hfile, hdiffers.mono ?_⟩
  rintro _ rfl
  exact hleads

theorem append_spec {disk after : Disk} {working : Location} {path : String} {bytes : Utf8.Bytes}
    (h : disk.append working path bytes = .ok after) :
    ∃ location former, disk.leadsTo working path = .ok location ∧
      disk.file? location = some former ∧ after.file? location = some (former ++ bytes) ∧
      DiffersOnlyAt disk after (disk.leadsTo working path = .ok ·) := by
  obtain ⟨location, former, hleads, hformer, rfl⟩ := append_eq_ok_iff.mp h
  obtain ⟨hfile, hdiffers⟩ :=
    differsOnlyAt_putFile (mayHoldFile_of_file? hleads hformer) (former ++ bytes)
  refine ⟨location, former, hleads, hformer, hfile, hdiffers.mono ?_⟩
  rintro _ rfl
  exact hleads

/-- A file is made where no directory is. -/
theorem exists_create {disk : Disk} {working location : Location} {path : String}
    (h : disk.leadsTo working path = .ok location) (hnot : ¬ disk.IsDirectoryAt location) :
    ∃ after, disk.create working path = .ok after ∧ after.file? location = some [] ∧
      DiffersOnlyAt disk after (disk.leadsTo working path = .ok ·) := by
  have hcreate := create_eq_ok_iff.mpr ⟨location, h, hnot, rfl⟩
  obtain ⟨place, hplace, hempty, hdiffers⟩ := create_spec hcreate
  obtain rfl := Except.ok.inj (h.symm.trans hplace)
  exact ⟨_, hcreate, hempty, hdiffers⟩

theorem exists_append {disk : Disk} {working location : Location} {path : String}
    {former : Utf8.Bytes} (h : disk.leadsTo working path = .ok location)
    (hformer : disk.file? location = some former) (bytes : Utf8.Bytes) :
    ∃ after, disk.append working path bytes = .ok after ∧
      after.file? location = some (former ++ bytes) ∧
      DiffersOnlyAt disk after (disk.leadsTo working path = .ok ·) := by
  obtain ⟨after, happend⟩ : ∃ after, disk.append working path bytes = .ok after :=
    ⟨_, append_eq_ok_iff.mpr ⟨location, former, h, hformer, rfl⟩⟩
  obtain ⟨place, found, hplace, hfound, hfile, hdiffers⟩ := append_spec happend
  obtain rfl := Except.ok.inj (h.symm.trans hplace)
  obtain rfl := Option.some.inj (hformer.symm.trans hfound)
  exact ⟨after, happend, hfile, hdiffers⟩

/-- Nothing is left where a file was renamed from. -/
theorem rename_spec {disk after : Disk} {working : Location} {source target : String}
    (h : disk.rename working source target = .ok after) :
    ∃ origin location bytes, disk.leadsTo working source = .ok origin ∧
      disk.file? origin = some bytes ∧ disk.leadsTo working target = .ok location ∧
      after.file? location = some bytes ∧ (origin ≠ location → after.file? origin = none) ∧
      DiffersOnlyAt disk after fun place =>
        disk.leadsTo working source = .ok place ∨ disk.leadsTo working target = .ok place := by
  obtain ⟨origin, location, bytes, hsource, hbytes, htarget, hnot, rfl⟩ := rename_eq_ok_iff.mp h
  obtain ⟨herased, hdiffers⟩ := differsOnlyAt_erase (mayHoldFile_of_file? hsource hbytes)
  have hmay : (disk.erase origin).MayHoldFile location :=
    mayHoldFile_of_leadsTo (hdiffers.leadsTo_eq_ok_iff.mpr htarget) fun hdirectory =>
      hnot ((hdiffers.isDirectoryAt_iff location).mp hdirectory)
  obtain ⟨hfile, hmoved⟩ := differsOnlyAt_putFile hmay bytes
  refine ⟨origin, location, bytes, hsource, hbytes, htarget, hfile, ?_, ?_⟩
  · intro hne
    rw [hmoved.file?_eq origin hne, herased]
  · refine (hdiffers.mono ?_).trans (hmoved.mono ?_)
    · rintro _ rfl
      exact Or.inl hsource
    · rintro _ rfl
      exact Or.inr htarget

theorem remove_spec {disk after : Disk} {working : Location} {path : String}
    (h : disk.remove working path = .ok after) :
    ∃ location, disk.leadsTo working path = .ok location ∧ after.file? location = none ∧
      DiffersOnlyAt disk after (disk.leadsTo working path = .ok ·) := by
  obtain ⟨location, bytes, hleads, hbytes, rfl⟩ := remove_eq_ok_iff.mp h
  obtain ⟨hfile, hdiffers⟩ := differsOnlyAt_erase (mayHoldFile_of_file? hleads hbytes)
  refine ⟨location, hleads, hfile, hdiffers.mono ?_⟩
  rintro _ rfl
  exact hleads

/-- A copied file is there twice, and nothing else has changed. -/
theorem copy_spec {disk after : Disk} {working : Location} {source target : String}
    (h : disk.copy working source target = .ok after) :
    ∃ origin location bytes, disk.leadsTo working source = .ok origin ∧
      disk.file? origin = some bytes ∧ disk.leadsTo working target = .ok location ∧
      after.file? location = some bytes ∧
      DiffersOnlyAt disk after (disk.leadsTo working target = .ok ·) := by
  obtain ⟨origin, location, bytes, hsource, hbytes, htarget, hnot, rfl⟩ := copy_eq_ok_iff.mp h
  obtain ⟨hfile, hdiffers⟩ := differsOnlyAt_putFile (mayHoldFile_of_leadsTo htarget hnot) bytes
  refine ⟨origin, location, bytes, hsource, hbytes, htarget, hfile, hdiffers.mono ?_⟩
  rintro _ rfl
  exact htarget

theorem makeDirectory_spec {disk after : Disk} {working : Location} {path : String}
    (h : disk.makeDirectory working path = .ok after) : Extends disk after := by
  obtain ⟨place, hplace, hmake⟩ := bind_eq_ok_iff.mp h
  split at hmake
  · cases hmake
  · next hnone =>
      obtain rfl := Except.ok.inj hmake
      have hentry : disk.root.at? place.location = none := (entry_of_follow hplace).symm.trans hnone
      obtain ⟨hfile, hnot⟩ := at?_eq_none_iff.mp hentry
      exact (putDirectory_spec (mayHoldFile_of_follow hplace hnot) hfile).2

theorem makeDirectory_joinPath {disk : Disk} {working location : Location}
    {directory name : String} (hname : IsName name)
    (h : disk.leadsTo working (joinPath directory name) = .ok location)
    (hnone : disk.root.at? location = none) :
    disk.makeDirectory working (joinPath directory name) = .ok (disk.putDirectory location) := by
  obtain ⟨place, hplace, rfl, hentry⟩ := locate_of_leadsTo h
  rw [locate, pathNames_joinPath hname, ← innerNames_joinPath hname] at hplace
  refine bind_eq_ok_iff.mpr ⟨place, hplace, ?_⟩
  simp only [hentry.trans hnone]

/-- What cannot be removed is no file. -/
theorem file?_eq_none_of_remove {disk : Disk} {working location : Location} {path : String}
    {fault : DiskFault} (h : disk.remove working path = .error fault)
    (hleads : disk.leadsTo working path = .ok location) : disk.file? location = none := by
  cases hfile : disk.file? location with
  | none => rfl
  | some bytes =>
      have hok := remove_eq_ok_iff.mpr ⟨location, bytes, hleads, hfile, rfl⟩
      rw [h] at hok
      cases hok

end Disk

end Discussion
