import Discussion.Proofs.Disk.Path
import Discussion.Proofs.Result

/-!
# What a disk holds, location by location

A disk is seen through `file?`, the content of the file at a location, and
`IsDirectoryAt`.  `leadsTo` is where a path leads; what an operation finds is what that
location holds.
-/

namespace Discussion

namespace Folder

theorem at?_append (folder : Folder) (before after : Location) :
    folder.at? (before ++ after) =
      (folder.at? before).bind fun entry => after.foldlM Entry.child? entry := by
  rw [at?, List.foldlM_append]
  rfl

end Folder

namespace Disk

/-- The content of the file at a location. -/
def file? (disk : Disk) (location : Location) : Option Utf8.Bytes :=
  match disk.root.at? location with
  | some (.file bytes) => some bytes
  | _ => none

/-- Whether a location holds a directory. -/
def IsDirectoryAt (disk : Disk) (location : Location) : Prop :=
  ∃ inside, disk.root.at? location = some (.directory inside)

theorem file?_eq_some_iff {disk : Disk} {location : Location} {bytes : Utf8.Bytes} :
    disk.file? location = some bytes ↔ disk.root.at? location = some (.file bytes) := by
  rw [file?]
  split
  · next other h => simp [h]
  · next h =>
      constructor
      · intro hnone
        cases hnone
      · intro hfile
        exact absurd hfile (h bytes)

theorem not_isDirectoryAt_of_file? {disk : Disk} {location : Location} {bytes : Utf8.Bytes}
    (h : disk.file? location = some bytes) : ¬ disk.IsDirectoryAt location := by
  rintro ⟨inside, hinside⟩
  rw [file?_eq_some_iff] at h
  rw [h] at hinside
  cases hinside

/-- A location holds nothing, a file or a directory. -/
theorem at?_eq_none_iff {disk : Disk} {location : Location} :
    disk.root.at? location = none ↔
      disk.file? location = none ∧ ¬ disk.IsDirectoryAt location := by
  rw [file?, IsDirectoryAt]
  cases disk.root.at? location with
  | none => simp
  | some entry => cases entry <;> simp

end Disk

/-! ## All contents -/

/-- The contents of all files in a folder and below it. -/
def Folder.contents : Folder → List Utf8.Bytes
  | .empty => []
  | .file _ bytes others => bytes :: others.contents
  | .directory _ inside others => inside.contents ++ others.contents

/-- The contents of all files of what a name stands for. -/
def Entry.contents : Entry → List Utf8.Bytes
  | .file bytes => [bytes]
  | .directory inside => inside.contents

theorem Folder.subset_contents_of_get? {folder : Folder} {name : String} {entry : Entry}
    (h : folder.get? name = some entry) : entry.contents ⊆ folder.contents := by
  induction folder with
  | empty => cases h
  | file other bytes others ih =>
      rw [get?] at h
      split at h
      · obtain rfl := Option.some.inj h
        exact List.cons_subset_cons bytes (List.nil_subset _)
      · exact fun content hcontent => List.mem_cons_of_mem bytes (ih h hcontent)
  | directory other inside others _ ih =>
      rw [get?] at h
      split at h
      · obtain rfl := Option.some.inj h
        exact List.subset_append_left _ _
      · exact fun content hcontent => List.mem_append_right _ (ih h hcontent)

namespace Disk

/-- A file of a disk is among its contents. -/
theorem mem_contents_of_file? {disk : Disk} {location : Location} {bytes : Utf8.Bytes}
    (h : disk.file? location = some bytes) : bytes ∈ disk.root.contents := by
  have hall : ∀ (start entry : Entry), location.foldlM Entry.child? start = some entry →
      entry.contents ⊆ start.contents := by
    clear h
    induction location with
    | nil =>
        intro start entry hend
        obtain rfl := Option.some.inj hend
        exact List.Subset.refl _
    | cons name location ih =>
        intro start entry hend
        rw [List.foldlM_cons] at hend
        obtain ⟨next, hnext, hrest⟩ := Option.bind_eq_some_iff.mp hend
        cases start with
        | file bytes => cases hnext
        | directory inside =>
            exact List.Subset.trans (ih next entry hrest) (Folder.subset_contents_of_get? hnext)
  exact hall (.directory disk.root) (.file bytes) (file?_eq_some_iff.mp h) List.mem_cons_self

/-! ## Where paths lead -/

/-- The location for which a name stands in a directory. -/
def nextLocation (location : Location) (name : String) : Except DiskFault Location :=
  if name = "." then .ok location
  else if name = ".." then .ok location.dropLast
  else if maxNameBytes < name.utf8ByteSize then .error .nameTooLong
  else .ok (location ++ [name])

/-- One step from a location to a name in it. -/
def step (disk : Disk) (location : Location) (name : String) : Except DiskFault Location :=
  match disk.root.at? location with
  | none => .error .missing
  | some (.file _) => .error .notDirectory
  | some (.directory _) => nextLocation location name

/-- The location to which names lead from the root or from the working directory. -/
def walk (disk : Disk) (start names : List String) : Except DiskFault Location :=
  (start ++ names).foldlM disk.step []

/-- The location to which a path leads, seen from a working directory. -/
def leadsTo (disk : Disk) (working : Location) (path : String) : Except DiskFault Location :=
  match pathFault? path with
  | some fault => .error fault
  | none => disk.walk (if isAbsolute path then [] else working) (pathNames path)

theorem location_leave (place : Place) : place.leave.location = place.location.dropLast := by
  obtain ⟨way, entry⟩ := place
  cases way with
  | nil => rfl
  | cons outer way => simp [Place.leave, Place.location]

theorem location_enter {disk : Disk} {place : Place} (h : Place.LiesIn disk.root place)
    (name : String) : (place.enter name).map Place.location = disk.step place.location name := by
  rw [Place.enter, step, ← h.entry_eq]
  cases place.entry with
  | none => rfl
  | some entry =>
      cases entry with
      | file bytes => rfl
      | directory inside =>
          simp only [nextLocation]
          by_cases hhere : name = "."
          · rw [if_pos hhere, if_pos hhere]
            rfl
          by_cases hout : name = ".."
          · rw [if_neg hhere, if_pos hout, if_neg hhere, if_pos hout]
            exact congrArg Except.ok (location_leave place)
          by_cases hlong : maxNameBytes < name.utf8ByteSize
          · rw [if_neg hhere, if_neg hout, if_pos hlong, if_neg hhere, if_neg hout, if_pos hlong]
            rfl
          · rw [if_neg hhere, if_neg hout, if_neg hlong, if_neg hhere, if_neg hout, if_neg hlong]
            exact congrArg Except.ok List.reverse_cons

theorem location_enterAll {disk : Disk} {place : Place} (h : Place.LiesIn disk.root place)
    (names : List String) :
    (names.foldlM Place.enter place).map Place.location =
      names.foldlM disk.step place.location := by
  induction names generalizing place with
  | nil => rfl
  | cons name names ih =>
      have hstep := location_enter h name
      rw [List.foldlM_cons, List.foldlM_cons, ← hstep]
      cases hnext : place.enter name with
      | error fault => rfl
      | ok next => exact ih (h.enter hnext)

theorem location_locate (disk : Disk) (working : Location) (path : String) :
    (disk.locate working path).map Place.location = disk.leadsTo working path := by
  rw [locate, follow, leadsTo]
  cases pathFault? path with
  | some fault => rfl
  | none => exact location_enterAll .start _

theorem locate_of_leadsTo {disk : Disk} {working location : Location} {path : String}
    (h : disk.leadsTo working path = .ok location) :
    ∃ place, disk.locate working path = .ok place ∧ place.location = location ∧
      place.entry = disk.root.at? location := by
  rw [← location_locate] at h
  cases hplace : disk.locate working path with
  | error fault =>
      rw [hplace] at h
      cases h
  | ok place =>
      rw [hplace] at h
      obtain rfl := Except.ok.inj h
      exact ⟨place, rfl, rfl, entry_of_follow hplace⟩

/-- A location where a file may be: no directory is there, but one is around it. -/
structure MayHoldFile (disk : Disk) (location : Location) : Prop where
  not_directory : ¬ disk.IsDirectoryAt location
  around : ∃ outer name, location = outer ++ [name] ∧ disk.IsDirectoryAt outer

theorem mayHoldFile_of_follow {disk : Disk} {working : Location} {path : String}
    {names : List String} {place : Place} (h : disk.follow working path names = .ok place)
    (hnot : ¬ disk.IsDirectoryAt place.location) : disk.MayHoldFile place.location := by
  refine ⟨hnot, ?_⟩
  have hlies : Place.LiesIn disk.root place := by
    rw [follow] at h
    split at h
    · cases h
    · exact Place.LiesIn.enterAll .start h
  cases hlies with
  | start => exact absurd ⟨disk.root, rfl⟩ hnot
  | @inner way inside name houter =>
      exact ⟨_, name, by simp [Place.location], inside, houter.entry_eq.symm⟩

theorem mayHoldFile_of_leadsTo {disk : Disk} {working location : Location} {path : String}
    (h : disk.leadsTo working path = .ok location) (hnot : ¬ disk.IsDirectoryAt location) :
    disk.MayHoldFile location := by
  obtain ⟨place, hplace, rfl, -⟩ := locate_of_leadsTo h
  exact mayHoldFile_of_follow hplace hnot

theorem find_eq_ok_iff {disk : Disk} {working location : Location} {path : String}
    {entry : Entry} :
    disk.find working path = .ok (location, entry) ↔
      disk.leadsTo working path = .ok location ∧ disk.root.at? location = some entry := by
  refine Iff.trans bind_eq_ok_iff ?_
  constructor
  · rintro ⟨place, hplace, hfound⟩
    have hleads : disk.leadsTo working path = .ok place.location := by
      rw [← location_locate, hplace]
      rfl
    have hentry := entry_of_follow hplace
    cases hsome : place.entry with
    | none =>
        simp only [hsome] at hfound
        cases hfound
    | some found =>
        simp only [hsome] at hfound
        cases hfound
        exact ⟨hleads, hentry.symm.trans hsome⟩
  · rintro ⟨hleads, hentry⟩
    obtain ⟨place, hplace, rfl, hsame⟩ := locate_of_leadsTo hleads
    refine ⟨place, hplace, ?_⟩
    simp only [hsame.trans hentry]

/-! ## Names in a directory -/

theorem step_of_isName {disk : Disk} {location : Location} {name : String} (h : IsName name)
    (hdirectory : disk.IsDirectoryAt location) :
    disk.step location name = .ok (location ++ [name]) := by
  obtain ⟨inside, hinside⟩ := hdirectory
  rw [step, hinside]
  simp only [nextLocation]
  rw [if_neg h.ne_here, if_neg h.ne_outer, if_neg (Nat.not_lt.mpr h.short)]

theorem step_eq_ok {disk : Disk} {location next : Location} {name : String}
    (h : disk.step location name = .ok next) :
    disk.IsDirectoryAt location ∧ nextLocation location name = .ok next := by
  rw [step] at h
  cases hentry : disk.root.at? location with
  | none =>
      rw [hentry] at h
      cases h
  | some entry =>
      cases entry with
      | file bytes =>
          rw [hentry] at h
          cases h
      | directory inside =>
          rw [hentry] at h
          exact ⟨⟨inside, hentry⟩, h⟩

theorem walk_concat_eq_ok_iff {disk : Disk} {start names : List String} {name : String}
    {location : Location} :
    disk.walk start (names ++ [name]) = .ok location ↔
      ∃ outer, disk.walk start names = .ok outer ∧ disk.step outer name = .ok location := by
  rw [walk, ← List.append_assoc, List.foldlM_append]
  refine Iff.trans bind_eq_ok_iff ?_
  constructor
  · rintro ⟨outer, houter, hlast⟩
    obtain ⟨next, hnext, hend⟩ := bind_eq_ok_iff.mp hlast
    cases hend
    exact ⟨outer, houter, hnext⟩
  · rintro ⟨outer, houter, hstep⟩
    exact ⟨outer, houter, bind_eq_ok_iff.mpr ⟨location, hstep, rfl⟩⟩

/-- The path of a name in a directory leads to that name where the directory's names lead. -/
theorem leadsTo_joinPath_iff {disk : Disk} {working location : Location}
    {directory name : String} (h : IsName name) :
    disk.leadsTo working (joinPath directory name) = .ok location ↔
      pathFault? (joinPath directory name) = none ∧ ∃ outer,
        disk.walk (if isAbsolute directory then [] else working) (innerNames directory) =
          .ok outer ∧
        disk.IsDirectoryAt outer ∧ location = outer ++ [name] := by
  rw [leadsTo, isAbsolute_joinPath h, pathNames_joinPath h]
  cases pathFault? (joinPath directory name) with
  | some fault => simp
  | none =>
      refine Iff.trans walk_concat_eq_ok_iff ?_
      constructor
      · rintro ⟨outer, houter, hstep⟩
        obtain ⟨hdirectory, -⟩ := step_eq_ok hstep
        rw [step_of_isName h hdirectory] at hstep
        exact ⟨rfl, outer, houter, hdirectory, (Except.ok.inj hstep).symm⟩
      · rintro ⟨-, outer, houter, hdirectory, rfl⟩
        exact ⟨outer, houter, step_of_isName h hdirectory⟩

/-- Where the path of a directory leads, its names lead too. -/
theorem walk_of_leadsTo {disk : Disk} {working location : Location} {directory : String}
    (h : disk.leadsTo working directory = .ok location) :
    disk.walk (if isAbsolute directory then [] else working) (innerNames directory) =
      .ok location := by
  rw [leadsTo] at h
  split at h
  · cases h
  · by_cases hslash : directory.toList.getLast? = some '/'
    · rw [pathNames, if_pos hslash] at h
      obtain ⟨outer, houter, hstep⟩ := walk_concat_eq_ok_iff.mp h
      obtain ⟨-, hnext⟩ := step_eq_ok hstep
      cases hnext
      exact houter
    · rwa [pathNames, if_neg hslash, List.append_nil] at h

/-- In a directory whose path leads somewhere, the path of a name leads to that name. -/
theorem leadsTo_joinPath {disk : Disk} {working location : Location} {directory name : String}
    (h : disk.leadsTo working directory = .ok location) (hdirectory : disk.IsDirectoryAt location)
    (hname : IsName name) (hfault : pathFault? (joinPath directory name) = none) :
    disk.leadsTo working (joinPath directory name) = .ok (location ++ [name]) :=
  (leadsTo_joinPath_iff hname).mpr ⟨hfault, location, walk_of_leadsTo h, hdirectory, rfl⟩

theorem eq_of_leadsTo_joinPath {disk : Disk} {working location inner : Location}
    {directory name : String} (h : disk.leadsTo working directory = .ok location)
    (hname : IsName name) (hinner : disk.leadsTo working (joinPath directory name) = .ok inner) :
    inner = location ++ [name] := by
  obtain ⟨-, outer, houter, -, rfl⟩ := (leadsTo_joinPath_iff hname).mp hinner
  rw [walk_of_leadsTo h] at houter
  cases houter
  rfl

/-- Where the path of a name in a named directory leads, that of the directory leads, too. -/
theorem leadsTo_directory {disk : Disk} {working location : Location} {base inner name : String}
    (hinner : IsName inner) (hname : IsName name)
    (h : disk.leadsTo working (joinPath (joinPath base inner) name) = .ok location) :
    ∃ place, disk.leadsTo working (joinPath base inner) = .ok place ∧
      disk.IsDirectoryAt place ∧ location = place ++ [name] := by
  obtain ⟨hfault, place, hwalk, hdirectory, rfl⟩ := (leadsTo_joinPath_iff hname).mp h
  refine ⟨place, ?_, hdirectory, rfl⟩
  rw [leadsTo, pathFault?_of_prefix (prefix_joinPath hname _) (joinPath_ne_empty hinner base) hfault]
  change disk.walk _ (pathNames (joinPath base inner)) = _
  rwa [pathNames_joinPath hinner, ← innerNames_joinPath hinner]

/-! ## What operations find -/

theorem contains_iff (disk : Disk) (working : Location) (path : String) :
    disk.contains working path = true ↔
      ∃ location, disk.leadsTo working path = .ok location ∧
        disk.root.at? location ≠ none := by
  rw [contains]
  constructor
  · intro h
    cases hfind : disk.find working path with
    | error fault => simp [hfind] at h
    | ok found =>
        obtain ⟨hleads, hentry⟩ := find_eq_ok_iff.mp hfind
        exact ⟨found.1, hleads, by simp [hentry]⟩
  · rintro ⟨location, hleads, hne⟩
    obtain ⟨entry, hentry⟩ := Option.ne_none_iff_exists'.mp hne
    rw [find_eq_ok_iff.mpr ⟨hleads, hentry⟩]

theorem read_eq_ok_iff {disk : Disk} {working : Location} {path : String} {bytes : Utf8.Bytes} :
    disk.read working path = .ok bytes ↔
      ∃ location, disk.leadsTo working path = .ok location ∧ disk.file? location = some bytes := by
  refine Iff.trans bind_eq_ok_iff ?_
  constructor
  · rintro ⟨⟨location, entry⟩, hfind, hok⟩
    obtain ⟨hleads, hentry⟩ := find_eq_ok_iff.mp hfind
    cases entry with
    | directory inside => cases hok
    | file found =>
        cases hok
        exact ⟨location, hleads, file?_eq_some_iff.mpr hentry⟩
  · rintro ⟨location, hleads, hfile⟩
    exact ⟨_, find_eq_ok_iff.mpr ⟨hleads, file?_eq_some_iff.mp hfile⟩, rfl⟩

theorem distinct_of_at? {disk : Disk} {location : Location} {entry : Entry}
    (h : disk.root.at? location = some entry) : entry.Distinct := by
  have hall : ∀ (start : Entry), start.Distinct →
      location.foldlM Entry.child? start = some entry → entry.Distinct := by
    clear h
    induction location with
    | nil =>
        intro start hstart hend
        obtain rfl := Option.some.inj hend
        exact hstart
    | cons name location ih =>
        intro start hstart hend
        rw [List.foldlM_cons] at hend
        obtain ⟨next, hnext, hrest⟩ := Option.bind_eq_some_iff.mp hend
        cases start with
        | file bytes => cases hnext
        | directory inside => exact ih next (Folder.distinct_of_get? hstart hnext) hrest
  exact hall (.directory disk.root) disk.distinct h

/-- The names in a directory, each once. -/
theorem names_of_isDirectoryAt {disk : Disk} {working location : Location} {path : String}
    (h : disk.leadsTo working path = .ok location) (hdirectory : disk.IsDirectoryAt location) :
    ∃ names, disk.names working path = .ok names ∧ names.Nodup ∧
      ∀ name, name ∈ names ↔ disk.root.at? (location ++ [name]) ≠ none := by
  obtain ⟨inside, hinside⟩ := hdirectory
  refine ⟨inside.names.mergeSort fun a b => decide (a ≤ b), ?_, ?_, ?_⟩
  · rw [Disk.names, find_eq_ok_iff.mpr ⟨h, hinside⟩]
    rfl
  · have hdistinct : inside.Distinct := distinct_of_at? hinside
    exact (List.mergeSort_perm _ _).nodup_iff.mpr (Folder.nodup_names hdistinct)
  · intro name
    rw [List.mem_mergeSort, Folder.mem_names_iff, Folder.at?_concat, hinside]
    change _ ↔ inside.get? name ≠ none
    rw [Option.isSome_iff_ne_none]

theorem names_eq_ok {disk : Disk} {working : Location} {path : String} {names : List String}
    (h : disk.names working path = .ok names) :
    ∃ location, disk.leadsTo working path = .ok location ∧ disk.IsDirectoryAt location := by
  obtain ⟨⟨location, entry⟩, hfind, hok⟩ := bind_eq_ok_iff.mp h
  obtain ⟨hleads, hentry⟩ := find_eq_ok_iff.mp hfind
  cases entry with
  | file bytes => cases hok
  | directory inside => exact ⟨location, hleads, inside, hentry⟩

theorem locateFile_eq_ok_iff {disk : Disk} {working location : Location} {path : String} :
    disk.locateFile working path = .ok location ↔
      disk.leadsTo working path = .ok location ∧ ¬ disk.IsDirectoryAt location := by
  refine Iff.trans bind_eq_ok_iff ?_
  constructor
  · rintro ⟨place, hplace, hok⟩
    have hleads : disk.leadsTo working path = .ok place.location := by
      rw [← location_locate, hplace]
      rfl
    have hentry := entry_of_follow hplace
    split at hok
    · cases hok
    · next hnot =>
        cases hok
        exact ⟨hleads, fun ⟨inside, hinside⟩ => hnot inside (hentry.trans hinside)⟩
  · rintro ⟨hleads, hnot⟩
    obtain ⟨place, hplace, rfl, hentry⟩ := locate_of_leadsTo hleads
    refine ⟨place, hplace, ?_⟩
    split
    · next inside hinside => exact absurd ⟨inside, hentry.symm.trans hinside⟩ hnot
    · rfl

end Disk

end Discussion
