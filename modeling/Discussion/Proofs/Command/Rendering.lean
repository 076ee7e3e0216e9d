import Discussion.Command.Run
import Discussion.Proofs.Command.Arguments
import Discussion.Proofs.Store.Keeping
import Discussion.Proofs.Store.Opening

/-!
# Rendering a file and rendering from a store

What is rendered depends on the snapshot alone, not on where it was found.  A snapshot that was
imported from a file is loaded as it was read, so that the store and the file give the same text.
-/

namespace Discussion

open Program

/-! ## Programs that look or talk -/

theorem Settings.does_load (path : String) : (Settings.load path).Does Action.IsLook := by
  refine does_bind (does_act trivial) fun there => ?_
  cases there with
  | false => exact does_pure _
  | true =>
      refine does_onSuccess (does_orFault (does_act trivial) _) fun bytes => ?_
      split
      · exact does_pure _
      · split
        · exact does_pure _
        · exact does_bind (does_act trivial) fun _ => does_pure _

theorem Settings.does_loadOrDefault (asked : Option String) (path : String) :
    (Settings.loadOrDefault asked path).Does Action.IsLook := by
  cases asked with
  | some asked => exact does_load asked
  | none =>
      refine does_bind (does_act trivial) fun there => ?_
      cases there with
      | false => exact does_pure _
      | true => exact does_load path

theorem Snapshot.does_source {α : Type} (snapshot : Snapshot) (ref : Reference)
    {allowed : Action → Prop} {next : Commentable → List Comment → Program (Except Fault α)}
    (hnext : ∀ owner comments, (next owner comments).Does allowed) :
    (snapshot.source.withThread ref next).Does allowed := by
  refine does_bind (does_pure _) fun owner => ?_
  cases owner with
  | error fault => exact does_pure _
  | ok owner =>
      refine does_bind (does_pure _) fun comments => ?_
      cases comments with
      | error fault => exact does_pure _
      | ok comments => exact hnext owner comments

namespace Environment

variable {environment : Environment}

theorem does_during {α : Type} {allowed : Action → Prop} {program : Program (Except Fault α)}
    (h : program.Does allowed) (doing : String) : (during doing program).Does allowed := by
  refine does_bind h fun result => ?_
  cases result <;> exact does_pure _

theorem does_loadSettings (environment : Environment) (asked : Option String) :
    (environment.loadSettings asked).Does Action.IsLook :=
  does_during (Settings.does_loadOrDefault _ _) _

theorem does_chosenView {allowed : Action → Prop} (hreport : ∀ event, allowed (.report event))
    (settings : Settings) (request : RenderRequest) (snapshot : Snapshot) :
    (chosenView settings request snapshot).Does allowed := by
  rw [chosenView]
  cases request.permalink <;>
    exact does_during (snapshot.does_source _ fun _ _ => does_absorb hreport _) _

/-- A snapshot is printed in the same way in every world. -/
theorem does_printSnapshot (palette : Palette) (settings : Settings) (request : RenderRequest)
    (snapshot : Snapshot) :
    (printSnapshot palette settings request snapshot).Does Action.IsTalk := by
  refine does_bind (does_act trivial) fun _ => ?_
  refine does_onSuccess (does_chosenView (fun _ => trivial) settings request snapshot) fun view => ?_
  exact does_bind (does_act trivial) fun _ => does_pure _

end Environment

/-! ## Rendering -/

namespace Environment

theorem run_during_of_ok {α : Type} {program : Program (Except Fault α)} {world last : World}
    {a : α} (h : program.run world = (.ok a, last)) (doing : String) :
    (during doing program).run world = (.ok a, last) := by
  rw [during, run_bind, h]
  rfl

theorem run_plainly_of_ok {α : Type} {program : Program (Except Fault α)} {world last : World}
    {a : α} (h : program.run world = (.ok a, last)) :
    (plainly program).run world = (.ok a, last) := by
  rw [plainly, run_bind, h]
  rfl

/-- The snapshot of a file, as it is found and with nothing but reports left behind. -/
theorem run_chosenSnapshot_file {environment : Environment} {request : RenderRequest}
    {file : String} {snapshot : Snapshot} (world : World) (hstored : request.stored = none)
    (hfile : request.file = some file)
    (hload : ((Snapshot.load file).run world).1 = .ok snapshot) :
    ∃ events, (environment.chosenSnapshot request).run world =
      (.ok snapshot, { world with events := events }) := by
  obtain ⟨-, events, hevents⟩ := Snapshot.run_load file world
  refine ⟨events, ?_⟩
  rw [chosenSnapshot, hstored, hfile]
  exact run_during_of_ok (Prod.ext hload hevents) _

/-- A stored snapshot, likewise. -/
theorem run_chosenSnapshot_stored {environment : Environment} {request : RenderRequest}
    {ref : Reference} {directory : String} {snapshot : Snapshot} (world : World)
    (hstored : request.stored = some ref) (hstore : request.store = some directory)
    (hthere : world.disk.contains world.working (joinPath directory "snapshots") = true)
    (hload : ((({ base := directory } : Store).load ref).run world).1 = .ok snapshot) :
    ∃ events, (environment.chosenSnapshot request).run world =
      (.ok snapshot, { world with events := events }) := by
  obtain ⟨-, events, hevents⟩ := Store.run_load { base := directory } ref world
  refine ⟨events, ?_⟩
  have hopen : (environment.openStore request.store).run world =
      (.ok { base := directory }, world) := by
    rw [openStore, hstore]
    exact Store.run_openAt_of_contains hthere
  rw [chosenSnapshot, hstored]
  simp only
  rw [onSuccess, run_bind, run_plainly_of_ok hopen]
  exact run_during_of_ok (Prod.ext hload hevents) _

/-- Where the settings are the same, requests that find the same snapshot and ask for the same
view of it render alike. -/
theorem speaksAlike_render {environment : Environment} {asked : Option String}
    {first second : RenderRequest} (snapshot : Snapshot) {here there : World}
    (hsettings : ((environment.loadSettings asked).run here).1 =
      ((environment.loadSettings asked).run there).1)
    (hhere : ∀ events, ∃ more, (environment.chosenSnapshot first).run
      { here with events := events } = (.ok snapshot, { here with events := more }))
    (hthere : ∀ events, ∃ more, (environment.chosenSnapshot second).run
      { there with events := events } = (.ok snapshot, { there with events := more }))
    (hprint : ∀ settings, printSnapshot environment.palette settings first snapshot =
      printSnapshot environment.palette settings second snapshot) :
    SpeaksAlike (environment.render asked first) here (environment.render asked second) there := by
  obtain ⟨events, hevents⟩ := (environment.does_loadSettings asked).run_of_isLook here
  obtain ⟨others, hothers⟩ := (environment.does_loadSettings asked).run_of_isLook there
  have hloaded : SpeaksAlike (environment.loadSettings asked) here
      (environment.loadSettings asked) there :=
    .of_silent ⟨events, Prod.ext rfl hevents⟩ ⟨others, Prod.ext hsettings.symm hothers⟩
  refine hloaded.onSuccess fun settings _ => ?_
  rw [hevents, hothers]
  have hchosen : SpeaksAlike (environment.chosenSnapshot first) { here with events := events }
      (environment.chosenSnapshot second) { there with events := others } :=
    .of_silent (hhere events) (hthere others)
  obtain ⟨more, hmore⟩ := hhere events
  refine hchosen.onSuccess fun found hfound => ?_
  rw [hmore] at hfound
  obtain rfl := Except.ok.inj hfound
  rw [hprint settings]
  exact .of_does (does_printSnapshot _ _ _ _) _ _

/-! ## Importing -/

/-- A file that holds a valid snapshot, and a disk that refuses nothing while it is imported.
The store may be there already or be made on the way. -/
structure CanImport (file directory : String) (snapshot : Snapshot) (world opened : World) :
    Prop where
  loads : ((Snapshot.load file).run world).1 = .ok snapshot
  opens : (Store.openAt directory).run world = (.ok { base := directory }, opened)
  saves : (Store.save { base := directory } snapshot).Unrefused
    ((Snapshot.load file).run opened).2

namespace CanImport

variable {file directory : String} {snapshot : Snapshot} {world opened : World}

theorem file_ne_empty (h : CanImport file directory snapshot world opened) : file ≠ "" := by
  rintro rfl
  have hload := h.loads
  rw [(Snapshot.run_load "" world).1] at hload
  obtain ⟨bytes, hread, -⟩ := Snapshot.ofRead_eq_ok_iff.mp hload
  obtain ⟨location, hleads, -⟩ := Disk.read_eq_ok_iff.mp hread
  cases hleads

theorem valid_and_spelled (h : CanImport file directory snapshot world opened) :
    snapshot.validate = .ok () ∧ snapshot.IsSpelled := by
  have hload := h.loads
  rw [(Snapshot.run_load file world).1] at hload
  obtain ⟨bytes, -, htext⟩ := Snapshot.ofRead_eq_ok_iff.mp hload
  obtain ⟨hread, hvalid⟩ := Snapshot.ofText_eq_ok_iff.mp htext
  exact ⟨hvalid, Snapshot.isSpelled_of_read? hread⟩

/-- The file is still there when the store has been opened. -/
theorem loads_opened (h : CanImport file directory snapshot world opened) :
    ((Snapshot.load file).run opened).1 = .ok snapshot := by
  obtain ⟨hextends, hworking⟩ := Store.extends_of_run_openAt h.opens
  have hload := h.loads
  rw [(Snapshot.run_load file world).1, Snapshot.ofRead_eq_ok_iff] at hload
  obtain ⟨bytes, hread, htext⟩ := hload
  rw [(Snapshot.run_load file opened).1, Snapshot.ofRead_eq_ok_iff, hworking]
  exact ⟨bytes, hextends.read hread, htext⟩

/-- The import succeeds, and the snapshot is in the store afterwards. -/
theorem run_importSnapshot (h : CanImport file directory snapshot world opened)
    (environment : Environment) :
    ∃ after, (environment.importSnapshot file (some directory)).run world = (.ok (), after) ∧
      after.disk.contains after.working (joinPath directory "snapshots") = true ∧
      ((({ base := directory } : Store).load snapshot.reference).run after).1 = .ok snapshot := by
  obtain ⟨hvalid, hspelled⟩ := h.valid_and_spelled
  obtain ⟨⟨result, saved⟩, hsave⟩ : ∃ run, (Store.save { base := directory } snapshot).run
      ((Snapshot.load file).run opened).2 = run := ⟨_, rfl⟩
  obtain ⟨u, hu⟩ := (Store.failsIfRefused_save _ hvalid _).mp h.saves
  rw [hsave] at hu
  obtain rfl : result = .ok u := hu
  rcases Store.runsTo_save hvalid (runsTo_nil_iff.mpr hsave) with
    ⟨-, -, hreplaced, disk, events, hlast⟩ | ⟨⟨fault, hfault⟩, -⟩
  · have hworking : saved.working = ((Snapshot.load file).run opened).2.working := by rw [hlast]
    obtain ⟨hload, hthere⟩ := hreplaced.load hworking hvalid hspelled
    refine ⟨{ saved with output := ?output }, ?run, hthere, ?load⟩
    case run =>
      have hopens : (environment.openForSnapshots (some directory)).run world =
          (.ok { base := directory }, opened) := run_during_of_ok h.opens _
      have hloads : (during ("Failed to read snapshot " ++ file) (Snapshot.load file)).run opened =
          (.ok snapshot, ((Snapshot.load file).run opened).2) :=
        run_during_of_ok (Prod.ext h.loads_opened rfl) _
      rw [importSnapshot, onSuccess, run_bind, hopens]
      simp only
      rw [onSuccess, run_bind, hloads]
      simp only
      rw [onSuccess, run_bind, run_plainly_of_ok hsave]
      rfl
    case load =>
      rw [(Store.run_load _ _ _).1] at hload ⊢
      exact hload
  · cases hfault

end CanImport

theorem run_of_ok {environment : Environment} {invocation : Invocation} {world last : World}
    (h : (program { environment with palette :=
      { coloured := environment.palette.coloured && !invocation.noColour } } invocation).run world =
        (.ok (), last)) : (environment.run invocation).run world = (0, last) := by
  rw [run, run_bind, h]
  rfl

/-- Invocations that differ in their programs only end alike if the programs do. -/
theorem speaksAlike_run {environment : Environment} {first second : Invocation}
    {here there : World} (hcolour : first.noColour = second.noColour)
    (h : ∀ palette, SpeaksAlike (program { environment with palette := palette } first) here
      (program { environment with palette := palette } second) there) :
    SpeaksAlike (environment.run first) here (environment.run second) there := by
  rw [run, run, hcolour]
  refine (h _).bind (.of_does ?_ _ _)
  split
  · exact does_pure _
  · exact does_bind (does_act trivial) fun _ => does_pure _

/-- A file that is imported into a store is rendered from there by the name of its commentable
as it was rendered itself: with the same exit code, the same text and the same complaint, for
all options that say how to render, as long as the import leaves the settings as they were. -/
theorem speaksAlike_after_import (environment : Environment) {given : Option String}
    {options : List String} {sorted : Arguments.Sorted} {file directory : String}
    {invocation : Invocation} {snapshot : Snapshot} {world opened : World}
    (hoptions : Command.AreViewOptions options sorted)
    (hfile : Arguments.looksLikeOption file = false)
    (hdirectory : Arguments.looksLikeOption directory = false) (hdirectory' : directory ≠ "")
    (hread : Command.read? given ("render" :: file :: options) = some invocation)
    (h : CanImport file directory snapshot world opened) :
    ∃ importing rendering after,
      Command.read? given ["snapshot", "import", file, "--store", directory] = some importing ∧
      Command.read? given ("render" :: "--commentable" :: snapshot.reference.text ::
        "--store" :: directory :: options) = some rendering ∧
      (environment.run importing).run world = (0, after) ∧
      (((environment.loadSettings invocation.settingsFile).run after).1 =
          ((environment.loadSettings invocation.settingsFile).run world).1 →
        SpeaksAlike (environment.run rendering) after (environment.run invocation) world) := by
  obtain ⟨request, hcommand, hstored, himport⟩ := hoptions.read?_stored snapshot.reference hfile
    h.file_ne_empty hdirectory hdirectory' hread
  obtain ⟨after, hafter, hthere, hload⟩ := h.run_importSnapshot
    { environment with palette := { coloured := environment.palette.coloured && !false } }
  refine ⟨_, _, after, himport, hstored, run_of_ok hafter, fun hsettings => ?_⟩
  refine speaksAlike_run rfl fun palette => ?_
  rw [program, program, hcommand]
  refine speaksAlike_render snapshot hsettings (fun events => ?_) (fun events => ?_)
    fun _ => rfl
  · refine run_chosenSnapshot_stored { after with events := events } rfl rfl hthere ?_
    rw [(Store.run_load _ _ _).1] at hload ⊢
    exact hload
  · refine run_chosenSnapshot_file { world with events := events } rfl rfl ?_
    rw [(Snapshot.run_load _ _).1]
    exact (Snapshot.run_load file world).1.symm.trans h.loads

/-- A comment with a reply, whose scores the command line prints for a viewer who sees both. -/
theorem speaksAlike_after_import_made :
    let environment : Environment :=
      { defaultSettings := "", defaultStore := "/", palette := { coloured := true } }
    let options := ["--viewer", "user:2", "--order", "oldest"]
    let ref : Reference := { kind := .article, id := 7 }
    let snapshot : Snapshot :=
      { commentable := { reference := ref, user := ⟨1⟩ }
        comments :=
          [{ id := ⟨1⟩, commentable := ref, user := ⟨2⟩, score := -5, createdAt := .epoch },
           { id := ⟨2⟩, parent := some ⟨1⟩, commentable := ref, user := ⟨3⟩, score := 8
             createdAt := ⟨60, 500000000⟩ }] }
    let world : World :=
      { disk :=
          { root := .file "a.json" (Utf8.encode snapshot.text) .empty
            distinct := ⟨List.not_mem_nil, trivial⟩ } }
    ∃ invocation importing rendering after,
      Command.read? none ("render" :: "/a.json" :: options) = some invocation ∧
      Command.read? none ["snapshot", "import", "/a.json", "--store", "/"] = some importing ∧
      Command.read? none ("render" :: "--commentable" :: "article-7" :: "--store" :: "/" ::
        options) = some rendering ∧
      (environment.run importing).run world = (0, after) ∧
      SpeaksAlike (environment.run rendering) after (environment.run invocation) world := by
  intro environment options ref snapshot world
  have hoptions : Command.AreViewOptions options
      { given := [("viewer", some "user:2"), ("order", some "oldest")] } :=
    ⟨by decide +kernel, rfl, by decide +kernel, by decide +kernel⟩
  obtain ⟨invocation, hread⟩ : ∃ invocation,
      Command.read? none ("render" :: "/a.json" :: options) = some invocation :=
    Option.isSome_iff_exists.mp (by decide +kernel)
  have hsettings : invocation.settingsFile = none := by
    have hnone : (Command.read? none ("render" :: "/a.json" :: options)).map
        Invocation.settingsFile = some none := by decide +kernel
    rw [hread] at hnone
    exact Option.some.inj hnone
  have hdefault : ∀ w : World, ((environment.loadSettings none).run w).1 = .ok {} := fun _ => rfl
  have hvalid : snapshot.validate = .ok () := by decide +kernel
  have hspelled : snapshot.IsSpelled := by
    simp only [Snapshot.IsSpelled, snapshot, List.forall_mem_cons, List.not_mem_nil, false_implies,
      implies_true, and_true]
    exact ⟨⟨"1970-01-01T00:00:00Z", by decide +kernel⟩,
      ⟨"1970-01-01T00:01:00.500Z", by decide +kernel⟩⟩
  have hdirectory : joinPath "/" "snapshots" = "/snapshots" := by decide +kernel
  have hleads : world.disk.leadsTo world.working (joinPath "/" "snapshots") =
      .ok ["snapshots"] := by
    rw [hdirectory]
    rfl
  let opened : World :=
    { world with
      disk := world.disk.putDirectory ["snapshots"]
      events := world.events ++ [.createdDirectory (joinPath "/" "snapshots")] }
  have hread' : world.disk.read world.working "/a.json" = .ok (Utf8.encode snapshot.text) :=
    Disk.read_eq_ok_iff.mpr ⟨["a.json"], rfl, Disk.file?_eq_some_iff.mpr rfl⟩
  have hempty : opened.disk.names opened.working (Store.directory { base := "/" }) = .ok [] := by
    have hfind : opened.disk.find opened.working "/snapshots" =
        .ok (["snapshots"], .directory .empty) := rfl
    rw [Store.directory, hdirectory, Disk.names, hfind]
    exact congrArg Except.ok List.mergeSort_nil
  obtain ⟨place, hkeeps⟩ := Store.exists_keeps_of_names hempty
  have hcan : CanImport "/a.json" "/" snapshot world opened := by
    refine ⟨?_, Store.run_openAt_of_missing hleads rfl, ?_⟩
    · rw [(Snapshot.run_load _ _).1, hread']
      exact Snapshot.ofText_encode_text hvalid hspelled
    · obtain ⟨-, events, hevents⟩ := Snapshot.run_load "/a.json" opened
      rw [hevents]
      exact (hkeeps.of_events events).unrefused_save hvalid (by decide +kernel) (by decide +kernel)
  obtain ⟨importing, rendering, after, himport, hrender, hafter, halike⟩ :=
    environment.speaksAlike_after_import hoptions (by decide) (by decide) (by decide) hread hcan
  have htext : snapshot.reference.text = "article-7" := by decide +kernel
  rw [htext] at hrender
  refine ⟨invocation, importing, rendering, after, hread, himport, hrender, hafter, halike ?_⟩
  rw [hsettings, hdefault, hdefault]

end Environment

end Discussion
