import Discussion.Proofs.Settings.Text
import Discussion.Proofs.Store.Opening
import Discussion.Proofs.Store.Stages
import Discussion.Settings.File

/-!
# Settings files read back

What loading settings answers depends on what the path holds.  Saving checks the settings and
writes their text down before the file is opened, so what cannot be saved leaves every file as it
was, and what was saved is loaded again.
-/

namespace Discussion

open Disk

namespace Settings

variable {settings : Settings} {path : String} {world : World}

/-! ## Loading -/

theorem ofText_eq_ok_iff {cs : List Char} :
    ofText cs = .ok settings ↔ read? cs = some settings ∧ settings.validate = .ok () := by
  rw [ofText]
  cases read? cs with
  | none => simp
  | some found =>
      refine Iff.trans map_eq_ok_iff ?_
      constructor
      · rintro ⟨_, hvalid, rfl⟩
        exact ⟨rfl, hvalid⟩
      · rintro ⟨hfound, hvalid⟩
        obtain rfl := Option.some.inj hfound
        exact ⟨(), hvalid, rfl⟩

/-- The valid settings in what was read from a path. -/
def ofRead : Except DiskFault Utf8.Bytes → Except Fault Settings
  | .error fault => .error (.io ("" ++ fault.message))
  | .ok bytes =>
      match Utf8.text? bytes with
      | none => .error (.io "stream did not contain valid UTF-8")
      | some text => ofText text

theorem value_load (path : String) (world : World) :
    ((load path).run world).1 =
      if world.disk.contains world.working path then ofRead (world.disk.read world.working path)
      else .error (.fileNotFound path) := by
  have hexists : (Program.pathExists path).run world =
      (world.disk.contains world.working path, world) := rfl
  have hread : (Program.read path).run world = (world.disk.read world.working path, world) := rfl
  rw [load, Program.run_bind, hexists]
  split
  · rw [Program.onSuccess, Program.run_bind, Program.orFault, Program.run_bind, hread]
    cases world.disk.read world.working path with
    | error fault => rfl
    | ok bytes =>
        simp only [ofRead, Program.run_pure]
        cases Utf8.text? bytes with
        | none => rfl
        | some text =>
            dsimp only
            cases ofText text <;> rfl
  · rfl

/-- Settings are loaded exactly where a path holds a text of them. -/
theorem value_load_eq_ok_iff : ((load path).run world).1 = .ok settings ↔
    ∃ bytes cs, world.content? path = some bytes ∧ Utf8.text? bytes = some cs ∧
      ofText cs = .ok settings := by
  rw [value_load]
  constructor
  · intro h
    split at h
    · cases hread : world.disk.read world.working path with
      | error fault =>
          rw [hread] at h
          cases h
      | ok bytes =>
          rw [hread, ofRead] at h
          split at h
          · cases h
          · next cs hcs =>
              exact ⟨bytes, cs, World.content?_eq_some_iff.mpr (read_eq_ok_iff.mp hread), hcs, h⟩
    · cases h
  · rintro ⟨bytes, cs, hbytes, hcs, h⟩
    rw [if_pos (World.contains_of_content? hbytes),
      read_eq_ok_iff.mpr (World.content?_eq_some_iff.mp hbytes), ofRead, hcs]
    exact h

/-- Settings are loaded where a path holds the text that was written for them. -/
theorem value_load_of_content? {text : String} (hvalid : settings.validate = .ok ())
    (hread : read? text.toList = some settings)
    (h : world.content? path = some (Utf8.encode text)) :
    ((load path).run world).1 = .ok settings :=
  value_load_eq_ok_iff.mpr
    ⟨_, _, h, Utf8.text?_encode text, ofText_eq_ok_iff.mpr ⟨hread, hvalid⟩⟩

/-- Settings that were loaded are valid, and all their integers are integers of TOML. -/
theorem valid_of_load (h : ((load path).run world).1 = .ok settings) :
    settings.validate = .ok () ∧ settings.pages.FitToml := by
  obtain ⟨_, _, -, -, htext⟩ := value_load_eq_ok_iff.mp h
  obtain ⟨hread, hvalid⟩ := ofText_eq_ok_iff.mp htext
  exact ⟨hvalid, fitToml_of_read? hread⟩

/-! ## Saving -/

/-- No operation on the disk that saving comes to fails, neither making the directory nor writing
the file. -/
structure DiskServes (settings : Settings) (path : String) (world : World) : Prop where
  parent : settings.validate = .ok () → ((makeParent path).run world).1 = .ok ()
  file : ∀ text, settings.validate = .ok () → settings.toText = .ok text →
    ((overwrite path text).run ((makeParent path).run world).2).1 = .ok ()

theorem does_makeParent (path : String) : (makeParent path).Does Program.IsMaking := by
  rw [makeParent]
  split
  · exact Program.does_pure _
  · exact Program.does_orFault (Program.does_makeDirectories _) _

/-- Making directories leaves every file. -/
theorem content?_of_makeParent {other : String} {bytes : Utf8.Bytes}
    (h : world.content? other = some bytes) :
    ((makeParent path).run world).2.content? other = some bytes := by
  obtain ⟨hextends, hworking⟩ := (does_makeParent path).run_of_isMaking world
  exact World.content?_of_extends hextends hworking h

/-- A text is written whole, or the disk refuses it. -/
theorem run_overwrite (path text : String) (world : World) :
    (∃ detail, ((overwrite path text).run world).1 = .error (.io detail)) ∨
      ((overwrite path text).run world).1 = .ok () ∧
        ((overwrite path text).run world).2.content? path = some (Utf8.encode text) := by
  cases hcreate : world.disk.create world.working path with
  | error fault =>
      have hrun : (Program.create path).run world = (.error fault, world) :=
        congrArg world.change hcreate
      rw [overwrite, Program.run_onSuccess_of_error (Program.run_orFault_of_error hrun "")]
      exact Or.inl ⟨_, rfl⟩
  | ok empty =>
      have hrun : (Program.create path).run world = (.ok (), { world with disk := empty }) :=
        Program.change_of_ok hcreate
      rw [overwrite, Program.run_onSuccess_of_ok (Program.run_orFault_of_ok hrun "")]
      cases happend : empty.append world.working path (Utf8.encode text) with
      | error fault =>
          have hrun : (Program.append path (Utf8.encode text)).run { world with disk := empty } =
              (.error fault, { world with disk := empty }) :=
            congrArg (World.change { world with disk := empty }) happend
          rw [Program.run_orFault_of_error hrun]
          exact Or.inl ⟨_, rfl⟩
      | ok disk =>
          have hrun : (Program.append path (Utf8.encode text)).run { world with disk := empty } =
              (.ok (), { world with disk := disk }) := Program.change_of_ok happend
          rw [Program.run_orFault_of_ok hrun]
          obtain ⟨former, hformer, hwhole⟩ :=
            @World.content?_of_append { world with disk := empty } _ _ _ happend
          rw [World.content?_of_create hcreate] at hformer
          obtain rfl := Option.some.inj hformer
          exact Or.inr ⟨rfl, hwhole⟩

theorem run_save_of_invalid {fault : Fault} (h : settings.validate = .error fault) :
    (settings.save path).run world = (.error fault, world) := by
  rw [save, h]
  rfl

theorem run_save_of_too_large (hvalid : settings.validate = .ok ())
    (hlarge : ¬ settings.pages.FitToml) (hparent : ((makeParent path).run world).1 = .ok ()) :
    (settings.save path).run world =
      (.error (.toml "integer out of range"), ((makeParent path).run world).2) := by
  rw [save, hvalid]
  simp only [Program.onSuccess, Program.run_bind, hparent, toText_of_not_fitToml hlarge]
  rfl

theorem run_save_of_served {text : String} (hvalid : settings.validate = .ok ())
    (htext : settings.toText = .ok text) (hparent : ((makeParent path).run world).1 = .ok ())
    (hfile : ((overwrite path text).run ((makeParent path).run world).2).1 = .ok ()) :
    ∃ events, (settings.save path).run world =
      (.ok (), { ((overwrite path text).run ((makeParent path).run world).2).2 with
        events := events }) := by
  rw [save, hvalid]
  simp only [Program.onSuccess, Program.run_bind, hparent, htext, hfile]
  exact ⟨_, rfl⟩

/-- What a save of settings comes to where the disk serves it. -/
structure SavesOrKeeps (settings : Settings) (path : String) (world : World) : Prop where
  refused_iff : (∃ fault, ((settings.save path).run world).1 = .error fault) ↔
    settings.validate ≠ .ok () ∨ ¬ settings.pages.FitToml
  /-- What cannot be saved leaves every file as it was. -/
  kept : ∀ fault, ((settings.save path).run world).1 = .error fault → ∀ other bytes,
    world.content? other = some bytes →
      ((settings.save path).run world).2.content? other = some bytes
  /-- What was saved is loaded again. -/
  loaded : ((settings.save path).run world).1 = .ok () →
    ((load path).run ((settings.save path).run world).2).1 = .ok settings

theorem value_save_of_fitToml (h : settings.DiskServes path world)
    (hvalid : settings.validate = .ok ()) (hfits : settings.pages.FitToml) :
    ((settings.save path).run world).1 = .ok () ∧
      ((load path).run ((settings.save path).run world).2).1 = .ok settings := by
  obtain ⟨text, htext, hread⟩ := exists_readBack hfits
  have hparent := h.parent hvalid
  have hfile := h.file text hvalid htext
  obtain ⟨events, hsave⟩ := run_save_of_served hvalid htext hparent hfile
  rcases run_overwrite path text ((makeParent path).run world).2 with
    ⟨detail, hrefused⟩ | ⟨-, hheld⟩
  · rw [hrefused] at hfile
    cases hfile
  · rw [hsave]
    refine ⟨rfl, value_load_of_content? hvalid hread ?_⟩
    rw [World.content?_eq_some_iff] at hheld ⊢
    exact hheld

theorem DiskServes.savesOrKeeps (h : settings.DiskServes path world) :
    settings.SavesOrKeeps path world := by
  -- A save ends in one of three ways: at once, once the directory is there, or when it has written.
  cases hvalid : settings.validate with
  | error fault =>
      have hrun := @run_save_of_invalid _ path world _ hvalid
      constructor
      · rw [hrun]
        exact ⟨fun _ => Or.inl (by rw [hvalid]; simp), fun _ => ⟨fault, rfl⟩⟩
      · rw [hrun]
        exact fun _ _ _ _ hbytes => hbytes
      · rw [hrun]
        intro hok
        cases hok
  | ok u =>
      by_cases hfits : settings.pages.FitToml
      · obtain ⟨hsaved, hloaded⟩ := value_save_of_fitToml h hvalid hfits
        constructor
        · rw [hsaved]
          constructor
          · rintro ⟨fault, hfault⟩
            cases hfault
          · rintro (hinvalid | hlarge)
            · exact absurd hvalid hinvalid
            · exact absurd hfits hlarge
        · rw [hsaved]
          intro fault hfault
          cases hfault
        · exact fun _ => hloaded
      · have hrun := run_save_of_too_large hvalid hfits (h.parent hvalid)
        constructor
        · rw [hrun]
          exact ⟨fun _ => Or.inr hfits, fun _ => ⟨_, rfl⟩⟩
        · rw [hrun]
          exact fun _ _ _ _ hbytes => content?_of_makeParent hbytes
        · rw [hrun]
          intro hok
          cases hok

/-- A directory is there at last, or the disk refuses it. -/
theorem run_makeParent (path : String) (world : World) :
    (∃ detail, ((makeParent path).run world).1 = .error (.io detail)) ∨
      ((makeParent path).run world).1 = .ok () := by
  rw [makeParent]
  split
  · exact Or.inr rfl
  · next parent _ =>
      cases hmade : (Program.makeDirectories parent).run world with
      | mk answer last =>
          cases answer with
          | error fault =>
              rw [Program.run_orFault_of_error hmade]
              exact Or.inl ⟨_, rfl⟩
          | ok u =>
              rw [Program.run_orFault_of_ok hmade]
              exact Or.inr rfl

theorem validate_ne_io (settings : Settings) (detail : String) :
    settings.validate ≠ .error (.io detail) := by
  intro h
  simp only [validate] at h
  split_ifs at h <;> cases h

/-- The disk serves a save exactly if the save does not report a refusal of the disk. -/
theorem diskServes_iff : settings.DiskServes path world ↔
    ∀ detail, ((settings.save path).run world).1 ≠ .error (.io detail) := by
  constructor
  · intro h detail hio
    cases hvalid : settings.validate with
    | error fault =>
        rw [run_save_of_invalid hvalid] at hio
        exact settings.validate_ne_io detail (hvalid.trans hio)
    | ok u =>
        by_cases hfits : settings.pages.FitToml
        · rw [(value_save_of_fitToml h hvalid hfits).1] at hio
          cases hio
        · rw [run_save_of_too_large hvalid hfits (h.parent hvalid)] at hio
          cases hio
  · intro h
    have hparent : settings.validate = .ok () → ((makeParent path).run world).1 = .ok () := by
      intro hvalid
      rcases run_makeParent path world with ⟨detail, hrefused⟩ | hmade
      · refine absurd ?_ (h detail)
        rw [save, hvalid]
        simp only [Program.onSuccess, Program.run_bind, hrefused]
        rfl
      · exact hmade
    refine ⟨hparent, fun text hvalid htext => ?_⟩
    rcases run_overwrite path text ((makeParent path).run world).2 with
      ⟨detail, hrefused⟩ | ⟨hwritten, -⟩
    · refine absurd ?_ (h detail)
      rw [save, hvalid]
      simp only [Program.onSuccess, Program.run_bind, hparent hvalid, htext, hrefused]
      rfl
    · exact hwritten

/-- A text is written where no directory is. -/
theorem value_overwrite_of_free {location : Location}
    (h : world.disk.leadsTo world.working path = .ok location)
    (hfree : ¬ world.disk.IsDirectoryAt location) (text : String) :
    ((overwrite path text).run world).1 = .ok () := by
  obtain ⟨empty, hcreate, hfile, hdiffers⟩ := exists_create h hfree
  obtain ⟨disk, happend, -, -⟩ :=
    exists_append (hdiffers.leadsTo_eq_ok_iff.mpr h) hfile (Utf8.encode text)
  have hmade : (Program.create path).run world = (.ok (), { world with disk := empty }) :=
    Program.change_of_ok hcreate
  have hadded : (Program.append path (Utf8.encode text)).run { world with disk := empty } =
      (.ok (), { world with disk := disk }) := Program.change_of_ok happend
  rw [overwrite, Program.run_onSuccess_of_ok (Program.run_orFault_of_ok hmade ""),
    Program.run_orFault_of_ok hadded]

/-- The disk serves a save where the directory can be made and no directory stands in the way. -/
theorem diskServes_of_free {after : World} {location : Location}
    (hparent : (makeParent path).run world = (.ok (), after))
    (h : after.disk.leadsTo after.working path = .ok location)
    (hfree : ¬ after.disk.IsDirectoryAt location) : settings.DiskServes path world := by
  refine ⟨fun _ => by rw [hparent], fun text _ _ => ?_⟩
  rw [hparent]
  exact value_overwrite_of_free h hfree text

/-- Settings survive their file: those that were loaded are valid, and wherever they are saved they
are loaded again; any settings either can be saved and are loaded again, or leave every file as it
was, exactly if they are not valid or a page size is no integer of TOML. -/
theorem survive_file :
    (∀ (path : String) (world : World) (settings : Settings),
        ((load path).run world).1 = .ok settings → settings.validate = .ok () ∧
          ∀ (copy : String) (there : World), settings.DiskServes copy there →
            ((settings.save copy).run there).1 = .ok () ∧
              ((load copy).run ((settings.save copy).run there).2).1 = .ok settings) ∧
      ∀ (settings : Settings) (path : String) (world : World),
        settings.DiskServes path world → settings.SavesOrKeeps path world := by
  refine ⟨fun path world settings hload => ?_, fun settings path world h => h.savesOrKeeps⟩
  obtain ⟨hvalid, hfits⟩ := valid_of_load hload
  exact ⟨hvalid, fun copy there h => value_save_of_fitToml h hvalid hfits⟩

/-- The defaults are saved to a first file and loaded from it; what was loaded is saved to another
and loaded from that; settings without podcast comments are refused and leave the first file. -/
theorem survive_file_defaults :
    let after := ((save {} "site.toml").run {}).2
    let mute : Settings := { pages := { podcast := 0 } }
    ((save {} "site.toml").run {}).1 = .ok () ∧ ((load "site.toml").run after).1 = .ok {} ∧
      ((load "copy.toml").run ((save {} "copy.toml").run {}).2).1 = .ok {} ∧
      (∃ fault, ((mute.save "site.toml").run after).1 = .error fault) ∧
      ∃ bytes, after.content? "site.toml" = some bytes ∧
        ((mute.save "site.toml").run after).2.content? "site.toml" = some bytes := by
  have hfree : ∀ name, ¬ Disk.IsDirectoryAt {} [name] := by
    rintro name ⟨inside, hinside⟩
    cases hinside
  have hsite : DiskServes {} "site.toml" {} := diskServes_of_free rfl rfl (hfree "site.toml")
  have hcopy : DiskServes {} "copy.toml" {} := diskServes_of_free rfl rfl (hfree "copy.toml")
  have hfits : PageSizes.FitToml {} := ⟨by decide, by decide, by decide⟩
  have hsaves := survive_file.2 {} "site.toml" {} hsite
  have hsaved : ((save {} "site.toml").run {}).1 = .ok () := by
    cases hresult : ((save {} "site.toml").run {}).1 with
    | ok u => rfl
    | error fault =>
        rcases hsaves.refused_iff.mp ⟨fault, hresult⟩ with hinvalid | hlarge
        · exact absurd rfl hinvalid
        · exact absurd hfits hlarge
  have hloaded := hsaves.loaded hsaved
  have hinvalid : validate { pages := { podcast := 0 } } ≠ .ok () := by decide
  have hmute := survive_file.2 { pages := { podcast := 0 } } "site.toml"
    ((save {} "site.toml").run {}).2 ⟨fun h => absurd h hinvalid, fun _ h _ => absurd h hinvalid⟩
  obtain ⟨fault, hfault⟩ := hmute.refused_iff.mpr (Or.inl hinvalid)
  obtain ⟨bytes, _, hbytes, -, -⟩ := value_load_eq_ok_iff.mp hloaded
  exact ⟨hsaved, hloaded, ((survive_file.1 _ _ _ hloaded).2 "copy.toml" {} hcopy).2,
    ⟨fault, hfault⟩, bytes, hbytes, hmute.kept fault hfault _ bytes hbytes⟩

end Settings

end Discussion
