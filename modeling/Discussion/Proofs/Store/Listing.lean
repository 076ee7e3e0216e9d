import Mathlib.Data.List.Nodup
import Mathlib.Data.Set.List
import Discussion.Proofs.Store.Keeping

/-!
# Listing a store

A listing reads the files of the directory in the order of their names and sorts what it
finds by commentable, which is another order.
-/

namespace Discussion

open Disk

theorem Kind.name_lt_iff (a b : Kind) :
    a.name < b.name ↔ a = .article ∧ b = .podcastEpisode := by
  cases a <;> cases b <;> decide

theorem Kind.compare_name (a b : Kind) :
    Ord.compare a.name b.name = if a = b then .eq else if a = .article then .lt else .gt := by
  cases a <;> cases b <;> decide

/-- Whether a commentable is listed before another: by the names of the kinds, then by number. -/
def Reference.Precedes (a b : Reference) : Prop :=
  a.kind.name < b.kind.name ∨ (a.kind = b.kind ∧ a.id < b.id)

namespace Store

/-! ## The order of a listing -/

theorem listsBefore_iff {a b : Reference × Nat} :
    listsBefore a b = true ↔ (a.1.kind = .article ∧ b.1.kind = .podcastEpisode) ∨
      (a.1.kind = b.1.kind ∧ a.1.id.toNat ≤ b.1.id.toNat) := by
  rw [listsBefore, Kind.compare_name]
  cases a.1.kind <;> cases b.1.kind <;> simp [Nat.compare_eq_gt]

theorem listsBefore_trans {a b c : Reference × Nat} (hab : listsBefore a b = true)
    (hbc : listsBefore b c = true) : listsBefore a c = true := by
  rw [listsBefore_iff] at hab hbc ⊢
  grind

theorem listsBefore_total (a b : Reference × Nat) :
    (listsBefore a b || listsBefore b a) = true := by
  rw [Bool.or_eq_true, listsBefore_iff, listsBefore_iff]
  cases a.1.kind <;> cases b.1.kind <;> simp [Nat.le_total]

theorem precedes_of_listsBefore {a b : Reference × Nat} (h : listsBefore a b = true)
    (hne : a.1 ≠ b.1) : a.1.Precedes b.1 := by
  rcases listsBefore_iff.mp h with hkinds | ⟨hkind, hid⟩
  · exact Or.inl ((Kind.name_lt_iff _ _).mpr hkinds)
  · refine Or.inr ⟨hkind, UInt64.lt_iff_toNat_lt.mpr (Nat.lt_of_le_of_ne hid fun hsame => hne ?_)⟩
    obtain ⟨⟨kind, id⟩, n⟩ := a
    obtain ⟨⟨otherKind, otherId⟩, m⟩ := b
    cases hkind
    cases UInt64.toNat_inj.mp hsame
    rfl

/-- Sorted rows of different commentables are strictly increasing. -/
theorem pairwise_precedes_mergeSort {rows : List (Reference × Nat)}
    (h : (rows.map Prod.fst).Nodup) :
    (rows.mergeSort listsBefore).Pairwise fun a b => a.1.Precedes b.1 := by
  have hsorted : (rows.mergeSort listsBefore).Pairwise fun a b => listsBefore a b = true := by
    apply List.pairwise_mergeSort
    · intro a b c
      exact listsBefore_trans
    · exact listsBefore_total
  have hnodup : ((rows.mergeSort listsBefore).map Prod.fst).Nodup :=
    ((List.mergeSort_perm rows listsBefore).map Prod.fst).nodup_iff.mpr h
  refine (hsorted.and (List.pairwise_map.mp hnodup)).imp ?_
  rintro a b ⟨hle, hne⟩
  exact precedes_of_listsBefore hle hne

/-! ## What is listed -/

/-- The snapshot that a listing finds under a name: a valid one, if the name may be that of a
snapshot. -/
def snapshotAt? (store : Store) (world : World) (name : String) : Option Snapshot :=
  if isSnapshotName name then
    (Snapshot.ofRead (joinPath store.directory name)
      (world.disk.read world.working (joinPath store.directory name))).toOption
  else none

theorem snapshotAt?_eq_some_iff {store : Store} {world : World} {name : String}
    {snapshot : Snapshot} :
    store.snapshotAt? world name = some snapshot ↔ isSnapshotName name = true ∧
      Snapshot.ofRead (joinPath store.directory name)
        (world.disk.read world.working (joinPath store.directory name)) = .ok snapshot := by
  rw [snapshotAt?, Option.ite_none_right_eq_some]
  refine and_congr_right fun _ => ?_
  cases Snapshot.ofRead (joinPath store.directory name)
    (world.disk.read world.working (joinPath store.directory name)) <;> simp [Except.toOption]

/-- The row that a listing makes of a snapshot. -/
def rowOf (snapshot : Snapshot) : Reference × Nat :=
  (snapshot.reference, snapshot.comments.length)

theorem rowOf_asWritten (snapshot : Snapshot) : rowOf snapshot.asWritten = rowOf snapshot := by
  rw [rowOf, Snapshot.asWritten, List.length_map]
  rfl

/-- Every file is read, and nothing but reports is left behind. -/
theorem run_survey (store : Store) (names : List String) (world : World) :
    ∃ events, (store.survey names).run world =
      ((names.filterMap (store.snapshotAt? world)).map rowOf, { world with events := events }) := by
  induction names generalizing world with
  | nil => exact ⟨world.events, rfl⟩
  | cons name names ih =>
      rw [survey]
      by_cases hname : isSnapshotName name = true
      · obtain ⟨hvalue, events, hevents⟩ := Snapshot.run_load (joinPath store.directory name) world
        rw [if_pos hname, Program.run_bind, hvalue, hevents]
        cases hread : Snapshot.ofRead (joinPath store.directory name)
            (world.disk.read world.working (joinPath store.directory name)) with
        | ok snapshot =>
            obtain ⟨more, hrest⟩ := ih { world with events := events }
            have hfound : store.snapshotAt? world name = some snapshot :=
              snapshotAt?_eq_some_iff.mpr ⟨hname, hread⟩
            refine ⟨more, ?_⟩
            simp only
            rw [Program.run_bind, hrest, List.filterMap_cons_some hfound]
            rfl
        | error fault =>
            obtain ⟨more, hrest⟩ := ih
              { world with
                events := events ++ [.unreadableSnapshot (joinPath store.directory name) fault] }
            have hfound : store.snapshotAt? world name = none := by
              rw [snapshotAt?, if_pos hname, hread]
              rfl
            refine ⟨more, ?_⟩
            rw [List.filterMap_cons_none hfound]
            exact hrest
      · obtain ⟨more, hrest⟩ := ih world
        have hfound : store.snapshotAt? world name = none := if_neg hname
        exact ⟨more, by rw [if_neg hname, hrest, List.filterMap_cons_none hfound]⟩

/-- A listing of a directory that can be read. -/
theorem run_list_of_ok {store : Store} {world : World} {names : List String}
    (hnames : world.disk.names world.working store.directory = .ok names) :
    ∃ events, store.list.run world =
      (.ok (((names.filterMap (store.snapshotAt? world)).map rowOf).mergeSort listsBefore),
        { world with events := events }) := by
  obtain ⟨events, hsurvey⟩ := store.run_survey names world
  have hrun : (Program.listDirectory store.directory).run world = (.ok names, world) :=
    congrArg (·, world) hnames
  refine ⟨events, ?_⟩
  rw [list, Program.onSuccess, Program.run_bind, Program.orFault, Program.run_bind, hrun]
  change (store.survey names >>= _).run world = _
  rw [Program.run_bind, hsurvey]
  rfl

/-- Where the directory cannot be read there is no listing. -/
theorem run_list_of_error {store : Store} {world : World} {fault : DiskFault}
    (hnames : world.disk.names world.working store.directory = .error fault) :
    store.list.run world =
      (.error (.io ("Failed to read snapshots directory: " ++ fault.message)), world) := by
  have hrun : (Program.listDirectory store.directory).run world = (.error fault, world) :=
    congrArg (·, world) hnames
  rw [list, Program.onSuccess, Program.run_bind, Program.orFault, Program.run_bind, hrun]
  rfl

namespace Keeps

variable {store : Store} {kept : Reference → Option Snapshot} {world : World} {place : Location}

theorem snapshotAt?_fileName (h : store.Keeps kept world place) {ref : Reference}
    {snapshot : Snapshot} (hkept : kept ref = some snapshot) (hrange : snapshot.InRange) :
    store.snapshotAt? world (fileName ref) = some snapshot.asWritten := by
  have hread := Snapshot.reread_eq (h.canKeep ref snapshot hkept).valid hrange
  exact snapshotAt?_eq_some_iff.mpr
    ⟨isSnapshotName_fileName ref, (h.ofRead_path hkept).trans hread⟩

/-- The names in the directory are those of the files of the snapshots. -/
theorem names_directory (h : store.Keeps kept world place) :
    ∃ refs : List Reference,
      world.disk.names world.working store.directory = .ok (refs.map fileName) ∧
        refs.Nodup ∧ ∀ ref, ref ∈ refs ↔ kept ref ≠ none := by
  obtain ⟨names, hnames, hnodup, hmem⟩ := names_of_isDirectoryAt h.leads h.directory
  have hthere : ∀ name, name ∈ names ↔ world.disk.file? (place ++ [name]) ≠ none := by
    intro name
    rw [hmem, Ne, at?_eq_none_iff, and_iff_left (h.no_directory name)]
  have hfile : ∀ name ∈ names, ∃ ref, fileName ref = name := by
    intro name hname
    obtain ⟨bytes, hbytes⟩ := Option.ne_none_iff_exists'.mp ((hthere name).mp hname)
    obtain ⟨ref, -, -, rfl, -⟩ := (h.file?_eq_some_iff name bytes).mp hbytes
    exact ⟨ref, rfl⟩
  obtain ⟨refs, rfl⟩ : names ∈ Set.range (List.map fileName) := by
    rw [Set.range_list_map]
    exact hfile
  refine ⟨refs, hnames, List.Nodup.of_map fileName hnodup, fun ref => ?_⟩
  have href : ref ∈ refs ↔ fileName ref ∈ refs.map fileName := by
    rw [List.mem_map]
    constructor
    · exact fun hmem => ⟨ref, hmem, rfl⟩
    · rintro ⟨other, hother, hsame⟩
      exact fileName_injective hsame ▸ hother
  rw [href, hthere, h.file?_fileName]
  simp

/-- A store lists each commentable for which it keeps a snapshot. -/
theorem list (h : store.Keeps kept world place) (hrange : AllInRange kept) :
    ∃ rows events, store.list.run world = (.ok rows, { world with events := events }) ∧
      (rows.Pairwise fun a b => a.1.Precedes b.1) ∧
      ∀ ref n, (ref, n) ∈ rows ↔
        ∃ snapshot, kept ref = some snapshot ∧ n = snapshot.comments.length := by
  obtain ⟨refs, hnames, hnodup, hrefs⟩ := h.names_directory
  obtain ⟨events, hrun⟩ := run_list_of_ok hnames
  have hfound : (refs.map fileName).filterMap (store.snapshotAt? world) =
      (refs.filterMap kept).map Snapshot.asWritten := by
    rw [List.filterMap_map, List.map_filterMap]
    refine List.filterMap_congr fun ref hmem => ?_
    obtain ⟨snapshot, hkept⟩ := Option.ne_none_iff_exists'.mp ((hrefs ref).mp hmem)
    rw [Function.comp_apply, h.snapshotAt?_fileName hkept (hrange ref snapshot hkept), hkept,
      Option.map_some]
  have hrows : (((refs.map fileName).filterMap (store.snapshotAt? world)).map rowOf) =
      (refs.filterMap kept).map rowOf := by
    rw [hfound, List.map_map]
    exact List.map_congr_left fun snapshot _ => rowOf_asWritten snapshot
  have href : ∀ {ref snapshot}, kept ref = some snapshot → snapshot.reference = ref :=
    fun hkept => (h.canKeep _ _ hkept).reference_eq
  have hfst : ((refs.filterMap kept).map rowOf).map Prod.fst = refs := by
    rw [List.map_map, List.map_filterMap]
    refine (List.filterMap_congr fun ref hmem => ?_).trans List.filterMap_some
    obtain ⟨snapshot, hkept⟩ := Option.ne_none_iff_exists'.mp ((hrefs ref).mp hmem)
    rw [hkept]
    exact congrArg some (href hkept)
  rw [hrows] at hrun
  refine ⟨_, events, hrun, pairwise_precedes_mergeSort (hfst.symm ▸ hnodup), fun ref n => ?_⟩
  rw [List.mem_mergeSort, List.mem_map]
  constructor
  · rintro ⟨snapshot, hmem, hrow⟩
    obtain ⟨other, -, hkept⟩ := List.mem_filterMap.mp hmem
    obtain rfl := href hkept
    cases hrow
    exact ⟨snapshot, hkept, rfl⟩
  · rintro ⟨snapshot, hkept, rfl⟩
    obtain rfl := href hkept
    exact ⟨snapshot, List.mem_filterMap.mpr ⟨_, (hrefs _).mpr (by simp [hkept]), hkept⟩, rfl⟩

end Keeps

end Store

end Discussion
