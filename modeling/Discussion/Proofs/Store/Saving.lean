import Discussion.Proofs.Store.Loading

/-!
# Saving is all or nothing

A save writes under a name that no snapshot bears, and moves the file only when it is
complete.  Wherever it fails, every stored snapshot is as it was.
-/

namespace Discussion

open Disk

namespace Store

theorem ne_of_leadsTo {world : World} {store : Store} {a b : Reference}
    {origin location : Location}
    (horigin : world.disk.leadsTo world.working (store.tempPath a) = .ok origin)
    (hlocation : world.disk.leadsTo world.working (store.path b) = .ok location) :
    origin ≠ location := by
  obtain ⟨-, outer, -, -, rfl⟩ := (leadsTo_joinPath_iff (isName_tempName a)).mp horigin
  obtain ⟨-, inner, -, -, rfl⟩ := (leadsTo_joinPath_iff (isName_fileName b)).mp hlocation
  intro hsame
  have hname := (List.append_inj' hsame rfl).2
  exact fileName_ne_tempName b a (List.cons.inj hname).1.symm

/-- What is on the disk after a snapshot has taken the place of the former one. -/
structure HasReplaced (store : Store) (snapshot : Snapshot) (before after : World) : Prop where
  written : ∃ location, before.disk.leadsTo before.working (store.path snapshot.reference) =
    .ok location ∧ after.disk.file? location = some (Utf8.encode snapshot.text)
  cleared : ∃ origin, before.disk.leadsTo before.working (store.tempPath snapshot.reference) =
    .ok origin ∧ after.disk.file? origin = none
  differs : DiffersOnlyAt before.disk after.disk fun location =>
    before.disk.leadsTo before.working (store.tempPath snapshot.reference) = .ok location ∨
      before.disk.leadsTo before.working (store.path snapshot.reference) = .ok location

/-- A snapshot that has taken its place is loaded, from a directory that is there. -/
theorem HasReplaced.load {store : Store} {snapshot : Snapshot} {before after : World}
    (h : store.HasReplaced snapshot before after) (hworking : after.working = before.working)
    (hvalid : snapshot.validate = .ok ()) (hspelled : snapshot.IsSpelled) :
    ((store.load snapshot.reference).run after).1 = .ok snapshot ∧
      after.disk.contains after.working store.directory = true := by
  obtain ⟨location, hlocation, hfile⟩ := h.written
  have hleads : after.disk.leadsTo after.working (store.path snapshot.reference) =
      .ok location := by
    rw [hworking]
    exact h.differs.leadsTo_eq_ok_iff.mpr hlocation
  refine ⟨?_, ?_⟩
  · rw [value_load_eq_ok_iff, Snapshot.ofRead_eq_ok_iff]
    exact ⟨_, read_eq_ok_iff.mpr ⟨location, hleads, hfile⟩,
      Snapshot.ofText_encode_text hvalid hspelled⟩
  · obtain ⟨place, hplace, ⟨inside, hinside⟩, -⟩ :=
      leadsTo_directory isName_snapshots (isName_fileName _) hleads
    refine (contains_iff _ _ _).mpr ⟨place, hplace, ?_⟩
    rw [hinside]
    exact Option.some_ne_none _

/-- Writing a file touches no other, and the file is complete if the writing succeeds. -/
theorem runsTo_writeTo {path : String} {snapshot : Snapshot} {world last : World}
    {mishaps : List Action} {result : Except Fault Unit}
    (h : (writeTo path snapshot).RunsTo world mishaps result last) :
    (∃ disk, last = { world with disk := disk } ∧
        DiffersOnlyAt world.disk disk (world.disk.leadsTo world.working path = .ok ·)) ∧
      (result = .ok () → mishaps = [] ∧ ∃ location,
        world.disk.leadsTo world.working path = .ok location ∧
        last.disk.file? location = some (Utf8.encode snapshot.text)) := by
  rcases Program.runsTo_onSuccess_iff.mp h with ⟨fault, hcreate, rfl⟩ |
    ⟨_, middle, before, after, hcreate, happend, rfl⟩
  · obtain ⟨answer, hanswer, hfault⟩ := Program.runsTo_orFault_iff.mp hcreate
    refine ⟨?_, fun hok => by cases hok⟩
    rcases Program.runsTo_create hanswer with ⟨rfl, -, -⟩ | ⟨-, rfl | ⟨disk, hdisk, rfl⟩⟩
    · cases hfault
    · exact ⟨_, rfl, .refl _ _⟩
    · obtain ⟨location, -, -, hdiffers⟩ := create_spec hdisk
      exact ⟨disk, rfl, hdiffers⟩
  · obtain ⟨answer, hanswer, hok⟩ := Program.runsTo_orFault_iff.mp hcreate
    rcases Program.runsTo_create hanswer with ⟨rfl, rfl, disk, hdisk, rfl⟩ | ⟨⟨fault, rfl⟩, -⟩
    · obtain ⟨location, hleads, hempty, hdiffers⟩ := create_spec hdisk
      -- Adding to the file leads to where it was made.
      have hmore : ∀ {bytes : Utf8.Bytes} {written : Disk},
          disk.append world.working path bytes = .ok written →
          DiffersOnlyAt world.disk written (world.disk.leadsTo world.working path = .ok ·) ∧
            written.file? location = some bytes := by
        intro bytes written hwritten
        obtain ⟨place, former, hplace, hformer, hfile, hagain⟩ := append_spec hwritten
        have hsame : place = location := by
          have hplace' := hdiffers.leadsTo_eq_ok_iff.mp hplace
          rw [hleads] at hplace'
          exact (Except.ok.inj hplace').symm
        subst hsame
        rw [hempty] at hformer
        obtain rfl := Option.some.inj hformer
        refine ⟨hdiffers.trans (hagain.mono fun other hother => ?_), hfile⟩
        exact hdiffers.leadsTo_eq_ok_iff.mp hother
      obtain ⟨answer, hanswer, hresult⟩ := Program.runsTo_orFault_iff.mp happend
      rcases Program.runsTo_append hanswer with ⟨rfl, rfl, written, hwritten, rfl⟩ |
        ⟨⟨fault, rfl⟩, rfl | ⟨part, written, hwritten, rfl⟩⟩
      · obtain ⟨hwhole, hfile⟩ := hmore hwritten
        exact ⟨⟨written, rfl, hwhole⟩, fun _ => ⟨rfl, location, hleads, hfile⟩⟩
      · refine ⟨⟨disk, rfl, hdiffers⟩, fun hdone => ?_⟩
        rw [hdone] at hresult
        cases hresult
      · refine ⟨⟨written, rfl, (hmore hwritten).1⟩, fun hdone => ?_⟩
        rw [hdone] at hresult
        cases hresult
    · cases hok

theorem runsTo_replace {store : Store} {snapshot : Snapshot} {world last : World}
    {mishaps : List Action} {result : Except Fault Unit}
    (h : (store.replace snapshot).RunsTo world mishaps result last) :
    (∃ disk, last = { world with disk := disk }) ∧
      ((result = .ok () ∧ mishaps = [] ∧ store.HasReplaced snapshot world last) ∨
        ((∃ fault, result = .error fault) ∧
          DiffersOnlyAt world.disk last.disk
            (world.disk.leadsTo world.working (store.tempPath snapshot.reference) = .ok ·))) := by
  rcases Program.runsTo_onSuccess_iff.mp h with ⟨fault, hwrite, rfl⟩ |
    ⟨_, middle, before, after, hwrite, hrename, rfl⟩
  · obtain ⟨⟨disk, rfl, hdiffers⟩, -⟩ := runsTo_writeTo hwrite
    exact ⟨⟨disk, rfl⟩, Or.inr ⟨⟨fault, rfl⟩, hdiffers⟩⟩
  · obtain ⟨⟨disk, rfl, hdiffers⟩, hwritten⟩ := runsTo_writeTo hwrite
    obtain ⟨rfl, origin, hleads, hfile⟩ := hwritten rfl
    obtain ⟨answer, hanswer, hresult⟩ := Program.runsTo_orFault_iff.mp hrename
    rcases Program.runsTo_rename hanswer with ⟨rfl, rfl, moved, hmoved, rfl⟩ | ⟨⟨fault, rfl⟩, rfl⟩
    · refine ⟨⟨moved, rfl⟩, Or.inl ⟨hresult, rfl, ?_⟩⟩
      obtain ⟨place, location, bytes, hplace, hbytes, hlocation, hfinal, hgone, hagain⟩ :=
        rename_spec hmoved
      have hplace' := hdiffers.leadsTo_eq_ok_iff.mp hplace
      have hlocation' := hdiffers.leadsTo_eq_ok_iff.mp hlocation
      have hsame : place = origin := by
        rw [hleads] at hplace'
        exact (Except.ok.inj hplace').symm
      subst hsame
      rw [hfile] at hbytes
      obtain rfl := Option.some.inj hbytes
      refine ⟨⟨location, hlocation', hfinal⟩,
        ⟨place, hleads, hgone (ne_of_leadsTo hleads hlocation')⟩, ?_⟩
      refine (hdiffers.mono fun other hother => Or.inl hother).trans (hagain.mono ?_)
      rintro other (hother | hother)
      · exact Or.inl (hdiffers.leadsTo_eq_ok_iff.mp hother)
      · exact Or.inr (hdiffers.leadsTo_eq_ok_iff.mp hother)
    · exact ⟨⟨disk, rfl⟩, Or.inr ⟨⟨_, hresult⟩, hdiffers⟩⟩

theorem failsIfRefused_replace (store : Store) (snapshot : Snapshot) :
    (store.replace snapshot).FailsIfRefused := by
  refine Program.failsIfRefused_onSuccess (Program.failsIfRefused_onSuccess ?_ ?_) ?_
  · exact Program.failsIfRefused_orFault (Program.failsIfRefused_create _) _
  · exact fun _ => Program.failsIfRefused_orFault (Program.failsIfRefused_append _ _) _
  · exact fun _ => Program.failsIfRefused_orFault (Program.failsIfRefused_rename _ _) _

/-- A disk takes a snapshot unless a directory stands in the way. -/
theorem unrefused_replace {store : Store} {snapshot : Snapshot} {world : World}
    {origin location : Location}
    (horigin : world.disk.leadsTo world.working (store.tempPath snapshot.reference) = .ok origin)
    (hfree : ¬ world.disk.IsDirectoryAt origin)
    (hlocation : world.disk.leadsTo world.working (store.path snapshot.reference) = .ok location)
    (hplace : ¬ world.disk.IsDirectoryAt location) : (store.replace snapshot).Unrefused world := by
  obtain ⟨created, hcreate, hempty, hcreated⟩ := exists_create horigin hfree
  have horigin' := hcreated.leadsTo_eq_ok_iff.mpr horigin
  obtain ⟨written, happend, hfile, hwritten⟩ :=
    exists_append horigin' hempty (Utf8.encode snapshot.text)
  obtain ⟨moved, hrename⟩ : ∃ disk, written.rename world.working
      (store.tempPath snapshot.reference) (store.path snapshot.reference) = .ok disk := by
    refine ⟨_, rename_eq_ok_iff.mpr ⟨origin, location, _,
      hwritten.leadsTo_eq_ok_iff.mpr horigin', hfile, ?_, ?_, rfl⟩⟩
    · exact hwritten.leadsTo_eq_ok_iff.mpr (hcreated.leadsTo_eq_ok_iff.mpr hlocation)
    · rwa [hwritten.isDirectoryAt_iff, hcreated.isDirectoryAt_iff]
  have hwrites : (writeTo (store.tempPath snapshot.reference) snapshot).RunsTo world []
      (.ok ()) { world with disk := written } := by
    refine Program.runsTo_onSuccess_iff.mpr (Or.inr ⟨(), { world with disk := created }, [], [],
      Program.runsTo_orFault_iff.mpr ⟨.ok (), ?_, rfl⟩,
      Program.runsTo_orFault_iff.mpr ⟨.ok (), ?_, rfl⟩, rfl⟩)
    · exact Program.runsTo_nil_iff.mpr (Program.change_of_ok hcreate)
    · exact Program.runsTo_nil_iff.mpr (Program.change_of_ok happend)
  have hreplaces : (store.replace snapshot).RunsTo world [] (.ok ())
      { world with disk := moved } := by
    refine Program.runsTo_onSuccess_iff.mpr (Or.inr ⟨(), _, [], [], hwrites,
      Program.runsTo_orFault_iff.mpr ⟨.ok (), ?_, rfl⟩, rfl⟩)
    exact Program.runsTo_nil_iff.mpr (Program.change_of_ok hrename)
  refine (failsIfRefused_replace store snapshot world).mpr ⟨(), ?_⟩
  rw [Program.runsTo_nil_iff.mp hreplaces]

/-- A save asks no more of the disk than the replacement. -/
theorem unrefused_save_iff {store : Store} {snapshot : Snapshot} {world : World}
    (hvalid : snapshot.validate = .ok ()) :
    (store.save snapshot).Unrefused world ↔ (store.replace snapshot).Unrefused world := by
  rw [save, hvalid]
  refine Iff.trans Program.unrefused_bind_iff (and_iff_left_of_imp fun hreplace => ?_)
  obtain ⟨u, hu⟩ := (failsIfRefused_replace store snapshot world).mp hreplace
  rw [hu]
  exact ⟨rfl, trivial⟩

/-- A save of a valid snapshot fails exactly when the disk refuses something. -/
theorem failsIfRefused_save (store : Store) {snapshot : Snapshot}
    (hvalid : snapshot.validate = .ok ()) : (store.save snapshot).FailsIfRefused := by
  intro world
  rw [unrefused_save_iff hvalid, failsIfRefused_replace store snapshot world, save, hvalid]
  simp only [Program.run_bind]
  cases ((store.replace snapshot).run world).1 with
  | ok u => exact ⟨fun _ => ⟨(), rfl⟩, fun _ => ⟨u, rfl⟩⟩
  | error fault =>
      constructor
      · rintro ⟨u, hu⟩
        cases hu
      · rintro ⟨u, hu⟩
        cases hu

theorem run_save_of_invalid (store : Store) {snapshot : Snapshot} {fault : Fault}
    (h : snapshot.validate = .error fault) (world : World) :
    (store.save snapshot).run world = (.error fault, world) := by
  rw [save, h]
  rfl

/-- A save of a valid snapshot replaces the former one and reports it, or clears what it
wrote first. -/
theorem runsTo_save {store : Store} {snapshot : Snapshot} {world last : World}
    {mishaps : List Action} {result : Except Fault Unit} (hvalid : snapshot.validate = .ok ())
    (h : (store.save snapshot).RunsTo world mishaps result last) :
    (result = .ok () ∧ mishaps = [] ∧ store.HasReplaced snapshot world last ∧
        ∃ disk events, last = { world with disk := disk, events := events }) ∨
      ((∃ fault, result = .error fault) ∧ (∃ disk, last = { world with disk := disk }) ∧
        DiffersOnlyAt world.disk last.disk
          (world.disk.leadsTo world.working (store.tempPath snapshot.reference) = .ok ·) ∧
        (.remove (store.tempPath snapshot.reference) ∉ mishaps → ∀ location,
          world.disk.leadsTo world.working (store.tempPath snapshot.reference) = .ok location →
          last.disk.file? location = none)) := by
  rw [save, hvalid] at h
  obtain ⟨outcome, middle, before, after, hreplace, hafter, rfl⟩ := Program.runsTo_bind_iff.mp h
  obtain ⟨⟨disk, rfl⟩, ⟨rfl, rfl, hreplaced⟩ | ⟨⟨fault, rfl⟩, hdiffers⟩⟩ := runsTo_replace hreplace
  · left
    obtain ⟨_, reported, reports, rest, hreport, hdone, rfl⟩ := Program.runsTo_bind_iff.mp hafter
    obtain ⟨rfl, rfl, rfl⟩ := Program.runsTo_pure_iff.mp hdone
    rcases Program.runsTo_act_iff.mp hreport with ⟨rfl, hanswer⟩ | ⟨rfl, hmishap⟩
    · cases hanswer
      exact ⟨rfl, rfl, ⟨hreplaced.written, hreplaced.cleared, hreplaced.differs⟩, disk, _, rfl⟩
    · cases hmishap
  · right
    obtain ⟨_, removed, removals, rest, hremove, hdone, rfl⟩ := Program.runsTo_bind_iff.mp hafter
    obtain ⟨rfl, rfl, rfl⟩ := Program.runsTo_pure_iff.mp hdone
    rcases Program.runsTo_remove hremove with ⟨cleared, hcleared, rfl⟩ | ⟨rfl, hnot⟩
    · obtain ⟨place, hplace, hgone, hagain⟩ := remove_spec hcleared
      refine ⟨⟨fault, rfl⟩, ⟨cleared, rfl⟩, ?_, ?_⟩
      · exact hdiffers.trans (hagain.mono fun other hother => hdiffers.leadsTo_eq_ok_iff.mp hother)
      · intro _ location hlocation
        rw [hdiffers.leadsTo_eq_ok_iff.mp hplace] at hlocation
        obtain rfl := Except.ok.inj hlocation
        exact hgone
    · refine ⟨⟨fault, rfl⟩, ⟨disk, rfl⟩, hdiffers, fun hwell location hlocation => ?_⟩
      rcases hnot with hmishap | ⟨refusal, hrefused⟩
      · exact absurd (by simp [hmishap]) hwell
      · exact file?_eq_none_of_remove hrefused (hdiffers.leadsTo_eq_ok_iff.mpr hlocation)

end Store

end Discussion
