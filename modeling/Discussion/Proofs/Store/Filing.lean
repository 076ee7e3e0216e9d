import Mathlib.Data.List.Pairwise
import Discussion.Proofs.Store.Opening
import Discussion.Proofs.Store.Listing

/-!
# Answers for the right commentable

A store finds a snapshot by the name of its file and does not compare that name with the
commentable inside.  It answers for the commentable it is asked for as long as its files bear
the names of their own commentables, whatever else lies in the directory.
-/

namespace Discussion

open Disk

namespace Store

/-- Every valid snapshot that a listing finds stands under the name of its own commentable. -/
def IsWellFiled (store : Store) (world : World) : Prop :=
  ∀ names, world.disk.names world.working store.directory = .ok names →
    ∀ name ∈ names, ∀ snapshot, store.snapshotAt? world name = some snapshot →
      name = fileName snapshot.reference

/-- A store that answers for a commentable with its own snapshot, owner and comments, and lists
each commentable once, with as many comments as it has when it is loaded. -/
structure AnswersRightly (store : Store) (world : World) : Prop where
  load : ∀ ref snapshot, ((store.load ref).run world).1 = .ok snapshot →
    snapshot.reference = ref ∧ ∀ c ∈ snapshot.comments, c.commentable = ref
  commentable : ∀ ref owner, ((store.source.commentable ref).run world).1 = .ok owner →
    owner.reference = ref
  comments : ∀ ref comments, ((store.source.comments ref).run world).1 = .ok comments →
    ∀ c ∈ comments, c.commentable = ref
  list : ∀ rows, (store.list.run world).1 = .ok rows → (rows.map Prod.fst).Nodup ∧
    ∀ row ∈ rows, ∃ snapshot, ((store.load row.1).run world).1 = .ok snapshot ∧
      row.2 = snapshot.comments.length

variable {store : Store} {world : World}

/-! ## What is loaded and fetched -/

theorem load_eq_ok_iff {ref : Reference} {snapshot : Snapshot} :
    ((store.load ref).run world).1 = .ok snapshot ↔
      store.snapshotAt? world (fileName ref) = some snapshot :=
  value_load_eq_ok_iff.trans
    (snapshotAt?_eq_some_iff.trans (and_iff_right (isSnapshotName_fileName ref))).symm

theorem valid_of_snapshotAt? {name : String} {snapshot : Snapshot}
    (h : store.snapshotAt? world name = some snapshot) : snapshot.validate = .ok () := by
  obtain ⟨bytes, -, htext⟩ := Snapshot.ofRead_eq_ok_iff.mp (snapshotAt?_eq_some_iff.mp h).2
  exact (Snapshot.ofText_eq_ok_iff.mp htext).2

theorem fetch_commentable_eq_ok_iff {ref : Reference} {owner : Commentable} :
    ((store.source.commentable ref).run world).1 = .ok owner ↔
      ∃ snapshot, ((store.load ref).run world).1 = .ok snapshot ∧ snapshot.commentable = owner := by
  rw [source, Program.run_bind]
  exact map_eq_ok_iff

theorem fetch_comments_eq_ok_iff {ref : Reference} {comments : List Comment} :
    ((store.source.comments ref).run world).1 = .ok comments ↔
      ∃ snapshot, ((store.load ref).run world).1 = .ok snapshot ∧ snapshot.comments = comments := by
  rw [source, Program.run_bind]
  exact map_eq_ok_iff

/-- What can be loaded lies in a directory that can be listed. -/
theorem mem_names_of_load {ref : Reference} {snapshot : Snapshot}
    (h : ((store.load ref).run world).1 = .ok snapshot) :
    ∃ names, world.disk.names world.working store.directory = .ok names ∧
      fileName ref ∈ names := by
  obtain ⟨bytes, hread, -⟩ := Snapshot.ofRead_eq_ok_iff.mp (value_load_eq_ok_iff.mp h)
  obtain ⟨location, hleads, hfile⟩ := read_eq_ok_iff.mp hread
  obtain ⟨place, hplace, hdirectory, rfl⟩ :=
    leadsTo_directory isName_snapshots (isName_fileName ref) hleads
  obtain ⟨names, hnames, -, hmem⟩ := names_of_isDirectoryAt hplace hdirectory
  refine ⟨names, hnames, (hmem _).mpr ?_⟩
  rw [file?_eq_some_iff.mp hfile]
  exact Option.some_ne_none _

/-! ## What is listed -/

theorem mem_rows_iff {names : List String} {row : Reference × Nat} :
    row ∈ ((names.filterMap (store.snapshotAt? world)).map rowOf).mergeSort listsBefore ↔
      ∃ name ∈ names, ∃ snapshot, store.snapshotAt? world name = some snapshot ∧
        rowOf snapshot = row := by
  rw [List.mem_mergeSort, List.mem_map]
  constructor
  · rintro ⟨snapshot, hmem, hrow⟩
    obtain ⟨name, hname, hfound⟩ := List.mem_filterMap.mp hmem
    exact ⟨name, hname, snapshot, hfound, hrow⟩
  · rintro ⟨name, hname, snapshot, hfound, hrow⟩
    exact ⟨snapshot, List.mem_filterMap.mpr ⟨name, hname, hfound⟩, hrow⟩

/-- Whether two files hold no snapshots of one commentable. -/
def HoldApart (store : Store) (world : World) (a b : String) : Prop :=
  ∀ s, store.snapshotAt? world a = some s → ∀ t, store.snapshotAt? world b = some t →
    s.reference ≠ t.reference

instance : Std.Symm (HoldApart store world) where
  symm _ _ h t ht s hs := (h s hs t ht).symm

theorem nodup_rows_iff {names : List String} :
    ((((names.filterMap (store.snapshotAt? world)).map rowOf).mergeSort listsBefore).map
        Prod.fst).Nodup ↔ names.Pairwise (store.HoldApart world) := by
  rw [((List.mergeSort_perm _ _).map Prod.fst).nodup_iff, List.map_map]
  change ((names.filterMap (store.snapshotAt? world)).map Snapshot.reference).Nodup ↔ _
  rw [List.nodup_iff_pairwise_ne, List.pairwise_map, List.pairwise_filterMap]
  rfl

/-- A store answers rightly exactly if it is well filed. -/
theorem answersRightly_iff (store : Store) (world : World) :
    store.AnswersRightly world ↔ store.IsWellFiled world := by
  constructor
  · intro h names hnames name hname snapshot hfound
    obtain ⟨events, hrun⟩ := run_list_of_ok hnames
    obtain ⟨hrows, hloads⟩ := h.list _ (congrArg Prod.fst hrun)
    -- The snapshot is listed, so its commentable can be loaded, from a file of the right name.
    obtain ⟨own, hload, -⟩ := hloads _ (mem_rows_iff.mpr ⟨name, hname, snapshot, hfound, rfl⟩)
    obtain ⟨again, hagain, hmem⟩ := mem_names_of_load hload
    obtain rfl := Except.ok.inj (hnames.symm.trans hagain)
    have hsame : own.reference = snapshot.reference := (h.load _ _ hload).1
    by_contra hne
    exact (nodup_rows_iff.mp hrows).forall hname hmem hne snapshot hfound own
      (load_eq_ok_iff.mp hload) hsame.symm
  · intro h
    have hload : ∀ ref snapshot, ((store.load ref).run world).1 = .ok snapshot →
        snapshot.reference = ref ∧ ∀ c ∈ snapshot.comments, c.commentable = ref := by
      intro ref snapshot hrun
      obtain ⟨names, hnames, hmem⟩ := mem_names_of_load hrun
      have hfound := load_eq_ok_iff.mp hrun
      have href : ref = snapshot.reference :=
        fileName_injective (h names hnames _ hmem snapshot hfound)
      subst href
      exact ⟨rfl, Snapshot.commentable_eq_of_valid (valid_of_snapshotAt? hfound)⟩
    refine ⟨hload, ?_, ?_, ?_⟩
    · intro ref owner hfetch
      obtain ⟨snapshot, hrun, rfl⟩ := fetch_commentable_eq_ok_iff.mp hfetch
      exact (hload ref snapshot hrun).1
    · intro ref comments hfetch
      obtain ⟨snapshot, hrun, rfl⟩ := fetch_comments_eq_ok_iff.mp hfetch
      exact (hload ref snapshot hrun).2
    · intro rows hrows
      cases hnames : world.disk.names world.working store.directory with
      | error fault =>
          rw [run_list_of_error hnames] at hrows
          cases hrows
      | ok names =>
          obtain ⟨events, hrun⟩ := run_list_of_ok hnames
          rw [hrun] at hrows
          obtain rfl := Except.ok.inj hrows
          obtain ⟨place, hplace, hdirectory⟩ := names_eq_ok hnames
          obtain ⟨again, hagain, hnodup, -⟩ := names_of_isDirectoryAt hplace hdirectory
          obtain rfl := Except.ok.inj (hnames.symm.trans hagain)
          refine ⟨nodup_rows_iff.mpr (hnodup.pairwise_of_forall_ne ?_), ?_⟩
          · intro a ha b hb hne s hs t ht hsame
            refine hne ?_
            rw [h names hnames a ha s hs, h names hnames b hb t ht, hsame]
          · intro row hrow
            obtain ⟨name, hname, snapshot, hfound, rfl⟩ := mem_rows_iff.mp hrow
            refine ⟨snapshot, load_eq_ok_iff.mpr ?_, rfl⟩
            rw [rowOf, ← h names hnames name hname snapshot hfound]
            exact hfound

/-- A store into which only saves have written is well filed. -/
theorem Keeps.isWellFiled {kept : Reference → Option Snapshot} {place : Location}
    (h : store.Keeps kept world place) (hrange : AllInRange kept) : store.IsWellFiled world := by
  obtain ⟨refs, hnames, -, hrefs⟩ := h.names_directory
  intro names hagain name hname found hfound
  obtain rfl := Except.ok.inj (hnames.symm.trans hagain)
  obtain ⟨ref, href, rfl⟩ := List.mem_map.mp hname
  obtain ⟨snapshot, hkept⟩ := Option.ne_none_iff_exists'.mp ((hrefs ref).mp href)
  rw [h.snapshotAt?_fileName hkept (hrange ref snapshot hkept)] at hfound
  obtain rfl := Option.some.inj hfound
  exact congrArg fileName (h.canKeep ref snapshot hkept).reference_eq.symm

/-- The file of one commentable may hold the snapshot of another, which is then loaded in its
place. -/
theorem not_answersRightly_of_misnamed :
    let store : Store := { base := "/" }
    let asked : Reference := { kind := .article, id := 1 }
    let snapshot : Snapshot :=
      { commentable := { reference := { kind := .article, id := 2 }, user := { value := 1 } } }
    let world : World :=
      { disk :=
          { root := .directory "snapshots"
              (.file "article-1.json" (Utf8.encode snapshot.text) .empty) .empty
            distinct := ⟨List.not_mem_nil, ⟨List.not_mem_nil, trivial⟩, trivial⟩ } }
    ((store.load asked).run world).1 = .ok snapshot ∧ ¬ store.AnswersRightly world := by
  intro store asked snapshot world
  have hpath : store.path asked = "/snapshots/article-1.json" := by decide +kernel
  have hleads : world.disk.leadsTo world.working (store.path asked) =
      .ok ["snapshots", "article-1.json"] := by
    rw [hpath]
    rfl
  have hfile : world.disk.file? ["snapshots", "article-1.json"] =
      some (Utf8.encode snapshot.text) := by
    rw [file?_eq_some_iff]
    rfl
  have hload : ((store.load asked).run world).1 = .ok snapshot := by
    rw [value_load_eq_ok_iff, Snapshot.ofRead_eq_ok_iff]
    exact ⟨_, read_eq_ok_iff.mpr ⟨_, hleads, hfile⟩,
      Snapshot.ofText_encode_text (Snapshot.validate_new _) (Snapshot.isSpelled_new _)⟩
  refine ⟨hload, fun h => ?_⟩
  obtain ⟨hsame, -⟩ := h.load asked snapshot hload
  exact absurd hsame (by decide)

end Store

end Discussion
