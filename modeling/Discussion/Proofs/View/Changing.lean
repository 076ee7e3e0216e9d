import Discussion.Proofs.Program.Watching
import Discussion.Proofs.Store.Filing
import Discussion.Proofs.Store.Overlapping
import Discussion.Proofs.View.Service

/-!
# Views of a thread that changes

The service fetches the commentable and its comments one after the other, and a store loads its
snapshot anew for each.  When another program saves in between, a view shows the comments of the
later snapshot.  All it keeps of the earlier one is whether its author hides comments, so it is the
view of the later snapshot alone unless the two differ in that.
-/

namespace Discussion

/-- What the service can be asked to show of a commentable. -/
inductive Rendering
  | thread (limit : Option UInt64) (order : Order)
  | permalink (id : CommentId)

/-- The view of fetched comments that was asked for. -/
def ThreadView.ofRendering (settings : Settings) (ref : Reference) (viewer : Viewer)
    (rendering : Rendering) (owner : Commentable) (comments : List Comment) :
    Logged (Except Fault ThreadView) :=
  match rendering with
  | .thread limit order => ofThread settings ref viewer limit order owner comments
  | .permalink id => ofPermalink settings ref id viewer owner comments

/-- The view of a source that was asked for. -/
def Source.render {m : Type → Type} [Monad m] [Reports m] (source : Source m)
    (settings : Settings) (ref : Reference) (viewer : Viewer) (rendering : Rendering) :
    m (Except Fault ThreadView) :=
  match rendering with
  | .thread limit order => source.thread settings ref viewer limit order
  | .permalink id => source.permalink settings ref id viewer

theorem Source.render_eq {m : Type → Type} [Monad m] [Reports m] (source : Source m)
    (settings : Settings) (ref : Reference) (viewer : Viewer) (rendering : Rendering) :
    source.render settings ref viewer rendering =
      source.withThread ref fun owner comments =>
        Reports.absorb (ThreadView.ofRendering settings ref viewer rendering owner comments) := by
  cases rendering <;> rfl

/-- Of the commentable a view shows whether all comments are visible, and nothing else. -/
theorem ThreadView.value_ofRendering_owner (settings : Settings) (ref : Reference)
    (viewer : Viewer) (rendering : Rendering) (owner other : Commentable)
    (comments : List Comment) :
    (ofRendering settings ref viewer rendering owner comments).value =
      (ofRendering settings ref viewer rendering other comments).value.map fun view =>
        { view with allVisible := Discussion.allVisible owner comments viewer } := by
  cases rendering with
  | thread limit order =>
      change (ofThread settings ref viewer limit order owner comments).value =
        (ofThread settings ref viewer limit order other comments).value.map _
      rw [value_ofThread, value_ofThread]
      cases (Thread.build comments (settings.pages.limit ref.kind limit) order).value <;> rfl
  | permalink id =>
      change (ofPermalink settings ref id viewer owner comments).value =
        (ofPermalink settings ref id viewer other comments).value.map _
      rw [value_ofPermalink, value_ofPermalink]
      cases (Thread.buildSubtree comments id .oldest).value with
      | error fault => rfl
      | ok thread =>
          simp only [Except.bind]
          split <;> rfl

theorem allVisible_of_anyCommentsHidden {owner other : Commentable}
    (h : owner.anyCommentsHidden = other.anyCommentsHidden) (comments : List Comment)
    (viewer : Viewer) : allVisible owner comments viewer = allVisible other comments viewer := by
  rw [allVisible, allVisible, h]

namespace Store

variable {store : Store} {settings : Settings} {ref : Reference} {viewer : Viewer}
  {rendering : Rendering} {world : World} {worlds : List World}

/-! ## Looking at a store -/

theorem does_load (store : Store) (ref : Reference) : (store.load ref).Does Action.IsLook := by
  refine Program.does_bind (Program.does_act trivial) fun there => ?_
  cases there with
  | false => exact Program.does_pure _
  | true =>
      refine Program.does_bind (Program.does_act trivial) fun answer => ?_
      split
      · exact Program.does_pure _
      · exact Program.does_pure _
      · exact Program.does_pure _
      · split
        · exact Program.does_pure _
        · exact Program.does_bind (Program.does_act trivial) fun _ => Program.does_pure _

theorem does_commentable (store : Store) (ref : Reference) :
    (store.source.commentable ref).Does Action.IsLook :=
  Program.does_bind (store.does_load ref) fun _ => Program.does_pure _

theorem does_comments (store : Store) (ref : Reference) :
    (store.source.comments ref).Does Action.IsLook :=
  Program.does_bind (store.does_load ref) fun _ => Program.does_pure _

theorem read_of_watches_load {path : String} {snapshot : Snapshot}
    (h : (Snapshot.load path).Watches worlds (.ok snapshot)) :
    ∃ world ∈ worlds,
      Snapshot.ofRead path (world.disk.read world.working path) = .ok snapshot := by
  obtain ⟨answer, _, _, hread, hrest, rfl⟩ := Program.watches_bind_iff.mp h
  obtain ⟨world, rfl, hanswer⟩ := Program.watches_act_iff.mp hread
  have hanswer' : world.disk.read world.working path = answer := hanswer
  refine ⟨world, List.mem_append_left _ (List.mem_singleton_self world), ?_⟩
  rw [hanswer']
  split at hrest
  · cases (Program.watches_pure_iff.mp hrest).2
  · cases (Program.watches_pure_iff.mp hrest).2
  · cases (Program.watches_pure_iff.mp hrest).2
  · split at hrest
    · cases (Program.watches_pure_iff.mp hrest).2
    · next found hfound =>
        obtain ⟨_, _, _, -, hdone, -⟩ := Program.watches_bind_iff.mp hrest
        rw [Snapshot.ofRead, hfound, (Program.watches_pure_iff.mp hdone).2]

/-- What is loaded was stored in some world on the way. -/
theorem exists_of_watches_load {snapshot : Snapshot}
    (h : (store.load ref).Watches worlds (.ok snapshot)) :
    ∃ world ∈ worlds, ((store.load ref).run world).1 = .ok snapshot := by
  obtain ⟨there, _, after, -, h, rfl⟩ := Program.watches_bind_iff.mp h
  cases there with
  | false => cases (Program.watches_pure_iff.mp h).2
  | true =>
      obtain ⟨world, hworld, hread⟩ := read_of_watches_load h
      exact ⟨world, List.mem_append_right _ hworld, value_load_eq_ok_iff.mpr hread⟩

/-- What is fetched is part of a snapshot that was stored in some world on the way. -/
theorem exists_of_watches_fetch {α : Type} {part : Snapshot → α} {a : α}
    (h : (do
      let loaded ← store.load ref
      pure (loaded.map part)).Watches worlds (.ok a)) :
    ∃ world ∈ worlds, ∃ snapshot, ((store.load ref).run world).1 = .ok snapshot ∧
      part snapshot = a := by
  obtain ⟨loaded, before, _, hload, hdone, rfl⟩ := Program.watches_bind_iff.mp h
  obtain ⟨snapshot, rfl, hpart⟩ := map_eq_ok_iff.mp (Program.watches_pure_iff.mp hdone).2.symm
  obtain ⟨world, hworld, hsnapshot⟩ := exists_of_watches_load hload
  exact ⟨world, List.mem_append_left _ hworld, snapshot, hsnapshot, hpart⟩

/-- A view is made of the owner of one snapshot and the comments of a later one. -/
theorem exists_of_watches_render {view : ThreadView}
    (h : (store.source.render settings ref viewer rendering).Watches worlds (.ok view)) :
    ∃ here there earlier later, [here, there].Sublist worlds ∧
      ((store.load ref).run here).1 = .ok earlier ∧
      ((store.load ref).run there).1 = .ok later ∧
      (ThreadView.ofRendering settings ref viewer rendering earlier.commentable
        later.comments).value = .ok view := by
  rw [Source.render_eq] at h
  obtain ⟨owner, first, _, howner, h, rfl⟩ := Program.watches_bind_iff.mp h
  cases owner with
  | error fault => cases (Program.watches_pure_iff.mp h).2
  | ok owner =>
      obtain ⟨comments, second, last, hcomments, h, rfl⟩ := Program.watches_bind_iff.mp h
      cases comments with
      | error fault => cases (Program.watches_pure_iff.mp h).2
      | ok comments =>
          obtain ⟨here, hhere, earlier, hearlier, rfl⟩ := exists_of_watches_fetch howner
          obtain ⟨there, hthere, later, hlater, rfl⟩ := exists_of_watches_fetch hcomments
          refine ⟨here, there, earlier, later, ?_, hearlier, hlater,
            (Program.value_of_watches_absorb h).symm⟩
          exact (List.singleton_sublist.mpr hhere).append
            (List.singleton_sublist.mpr (List.mem_append_left _ hthere))

/-! ## The service over a store -/

/-- What is left of a call once the commentable has been fetched. -/
def renderRest (store : Store) (settings : Settings) (ref : Reference) (viewer : Viewer)
    (rendering : Rendering) :
    Except Fault Commentable → Program (Except Fault ThreadView)
  | .error fault => pure (.error fault)
  | .ok owner => do
      match ← store.source.comments ref with
      | .error fault => pure (.error fault)
      | .ok comments =>
          Reports.absorb (ThreadView.ofRendering settings ref viewer rendering owner comments)

theorem render_eq_bind (store : Store) (settings : Settings) (ref : Reference) (viewer : Viewer)
    (rendering : Rendering) :
    store.source.render settings ref viewer rendering =
      store.source.commentable ref >>= store.renderRest settings ref viewer rendering := by
  rw [Source.render_eq, Source.withThread]
  refine congrArg _ (funext fun owner => ?_)
  cases owner <;> rfl

theorem does_renderRest (store : Store) (settings : Settings) (ref : Reference)
    (viewer : Viewer) (rendering : Rendering) (owner : Except Fault Commentable) :
    (store.renderRest settings ref viewer rendering owner).Does Action.IsLook := by
  cases owner with
  | error fault => exact Program.does_pure _
  | ok owner =>
      refine Program.does_bind (store.does_comments ref) fun comments => ?_
      cases comments with
      | error fault => exact Program.does_pure _
      | ok comments => exact Program.does_absorb (fun _ => trivial) _

theorem does_render (store : Store) (settings : Settings) (ref : Reference) (viewer : Viewer)
    (rendering : Rendering) :
    (store.source.render settings ref viewer rendering).Does Action.IsLook := by
  rw [render_eq_bind]
  exact Program.does_bind (store.does_commentable ref)
    (store.does_renderRest settings ref viewer rendering)

/-- The comments of a call are those of the snapshot that is stored by then. -/
theorem value_renderRest (owner : Commentable) {snapshot : Snapshot}
    (h : ((store.load ref).run world).1 = .ok snapshot) :
    ((store.renderRest settings ref viewer rendering (.ok owner)).run world).1 =
      (ThreadView.ofRendering settings ref viewer rendering owner snapshot.comments).value := by
  have hcomments : ((store.source.comments ref).run world).1 = .ok snapshot.comments :=
    fetch_comments_eq_ok_iff.mpr ⟨snapshot, h, rfl⟩
  rw [renderRest, Program.run_bind, hcomments]
  exact Program.runner.value_absorb _ _

theorem load_of_events {snapshot : Snapshot} (events : List Event)
    (h : ((store.load ref).run world).1 = .ok snapshot) :
    ((store.load ref).run { world with events := events }).1 = .ok snapshot := by
  rw [value_load_eq_ok_iff] at h ⊢
  exact h

/-- Where nobody else acts, a view is that of the snapshot that is stored. -/
theorem value_render_of_load {snapshot : Snapshot}
    (h : ((store.load ref).run world).1 = .ok snapshot) :
    ((store.source.render settings ref viewer rendering).run world).1 =
      (ThreadView.ofRendering settings ref viewer rendering snapshot.commentable
        snapshot.comments).value := by
  have howner : ((store.source.commentable ref).run world).1 = .ok snapshot.commentable :=
    fetch_commentable_eq_ok_iff.mpr ⟨snapshot, h, rfl⟩
  obtain ⟨events, hevents⟩ := (store.does_commentable ref).run_of_isLook world
  rw [render_eq_bind, Program.run_bind, howner, hevents]
  exact value_renderRest _ (load_of_events events h)

variable {ι : Type} [DecidableEq ι]

/-- The programs of a reader, who asks for a view, and of others, who save. -/
abbrev Callers (ι : Type) :=
  Crowd ι (Except Fault ThreadView ⊕ Except Fault Unit)

/-- A view that a call returns, whatever others do meanwhile, is the view of a snapshot that was
stored during the call, except that whether all comments are visible also depends on an earlier
snapshot.  It is the view of one snapshot if the authors hide comments in both or in neither. -/
theorem render_beside_others (store : Store) (settings : Settings) (ref : Reference)
    (viewer : Viewer) (rendering : Rendering) {reader : ι} {view : ThreadView}
    {may : Callers ι → ι → Prop} {crowd last : Callers ι} {passed : List (Callers ι)}
    (hcall : crowd.programs reader =
      Sum.inl <$> store.source.render settings ref viewer rendering)
    (hrun : Crowd.Runs may crowd passed last)
    (hdone : last.programs reader = .done (.inl (.ok view))) :
    ∃ here there earlier later alone, [here, there].Sublist (passed.map (·.world)) ∧
      ((store.load ref).run here).1 = .ok earlier ∧
      ((store.load ref).run there).1 = .ok later ∧
      ((store.source.render settings ref viewer rendering).run there).1 = .ok alone ∧
      view = { alone with
        allVisible := allVisible earlier.commentable later.comments viewer } ∧
      (earlier.commentable.anyCommentsHidden = later.commentable.anyCommentsHidden →
        view = alone) := by
  have hlooks : (crowd.programs reader).Does Action.IsLook := by
    rw [hcall]
    exact Program.does_bind (store.does_render settings ref viewer rendering) fun _ =>
      Program.does_pure _
  obtain ⟨worlds, hworlds, hwatches⟩ := hrun.exists_watches hlooks hdone
  rw [hcall] at hwatches
  obtain ⟨result, before, _, hrender, hpure, rfl⟩ := Program.watches_bind_iff.mp hwatches
  obtain ⟨-, hresult⟩ := Program.watches_pure_iff.mp hpure
  obtain rfl := Sum.inl.inj hresult
  obtain ⟨here, there, earlier, later, horder, hearlier, hlater, hview⟩ :=
    exists_of_watches_render hrender
  -- The owner of the later snapshot in the place of the earlier one changes one field only.
  rw [ThreadView.value_ofRendering_owner _ _ _ _ _ later.commentable] at hview
  obtain ⟨alone, halone, rfl⟩ := map_eq_ok_iff.mp hview
  refine ⟨here, there, earlier, later, alone,
    (horder.trans (List.sublist_append_left _ _)).trans hworlds, hearlier, hlater,
    (value_render_of_load hlater).trans halone, rfl, fun hsame => ?_⟩
  have hself := ThreadView.value_ofRendering_owner settings ref viewer rendering
    later.commentable later.commentable later.comments
  rw [halone] at hself
  rw [allVisible_of_anyCommentsHidden hsame]
  exact (Except.ok.inj hself).symm

/-! ## A save between the two fetches -/

section

variable {earlier later : Snapshot} {crowd : Callers ι} {i : ι}

/-- A caller that has come to some stage of a save, while the others pause. -/
def savingAt (store : Store) (later : Snapshot) (crowd : Callers ι) (i : ι) (stage : Stage)
    (world : World) : Callers ι :=
  { programs := Function.update crowd.programs i (Sum.inr <$> stage.program store later)
    world := world }

theorem step_savingAt {stage next : Stage} {after : World}
    (h : (stage.program store later).Step world (next.program store later) after) :
    Crowd.Step (fun _ _ => True) (store.savingAt later crowd i stage world)
      (store.savingAt later crowd i next after) := by
  have hself : (store.savingAt later crowd i stage world).programs i =
      Sum.inr <$> stage.program store later := Function.update_self i _ _
  have hstep : Crowd.Step (fun _ _ => True) (store.savingAt later crowd i stage world)
      { programs := Function.update (store.savingAt later crowd i stage world).programs i
          (Sum.inr <$> next.program store later)
        world := after } := by
    refine .act trivial ?_
    rw [hself]
    exact h.bind _
  simp only [savingAt, Function.update_idem] at hstep
  exact hstep

/-- While the others pause, a save replaces what was stored. -/
theorem exists_runs_of_save (hprogram : crowd.programs i = Sum.inr <$> store.save later)
    (hvalid : later.validate = .ok ()) (href : later.reference = ref)
    (hroom : store.HasRoom ref crowd.world) :
    ∃ passed after, Crowd.Runs (fun _ _ => True) crowd passed
        (store.savingAt later crowd i (.done (.ok ())) after) ∧
      (∀ other ∈ passed,
        other.world.content? (store.path ref) = crowd.world.content? (store.path ref) ∨
          other.world.content? (store.path ref) = some (Utf8.encode later.text)) ∧
      after.content? (store.path ref) = some (Utf8.encode later.text) := by
  subst href
  obtain ⟨made, hmake, hroom, hempty⟩ := hroom.make
  obtain ⟨filled, hfill, hroom, hwhole⟩ := hroom.fill hempty
  obtain ⟨moved, hmove, hfinal⟩ := hroom.move hwhole
  obtain ⟨reported, hreport, hheld⟩ := exists_report store later moved
  -- Only the third of its four actions changes what is stored.
  have hmade := final_eq_of_step hmake nofun
  have hfilled := (final_eq_of_step hfill nofun).trans hmade
  have hstart : crowd = store.savingAt later crowd i .making crowd.world := by
    rw [savingAt, ← save_eq_making store later hvalid, ← hprogram, Function.update_eq_self]
  have hruns : Crowd.Runs (fun _ _ => True) (store.savingAt later crowd i .making crowd.world)
      [store.savingAt later crowd i .making crowd.world, store.savingAt later crowd i .filling made,
        store.savingAt later crowd i .moving filled, store.savingAt later crowd i .reporting moved]
      (store.savingAt later crowd i (.done (.ok ())) reported) :=
    .act (step_savingAt hmake) (.act (step_savingAt hfill) (.act (step_savingAt hmove)
      (.act (step_savingAt hreport) (.stay _))))
  rw [← hstart] at hruns
  refine ⟨_, reported, hruns, ?_, ?_⟩
  · simp only [List.forall_mem_cons, List.not_mem_nil, false_implies, implies_true, and_true]
    exact ⟨Or.inl trivial, Or.inl hmade, Or.inl hfilled, Or.inr hfinal⟩
  · exact (congrArg Held.final hheld).trans hfinal

/-- While the others pause, a call fetches the owner of what is stored. -/
theorem exists_runs_of_render
    (hprogram : crowd.programs i =
      Sum.inl <$> store.source.render settings ref viewer rendering)
    (hload : ((store.load ref).run crowd.world).1 = .ok earlier) :
    ∃ passed events, Crowd.Runs (fun _ _ => True) crowd passed
        { programs := Function.update crowd.programs i
            (Sum.inl <$> store.renderRest settings ref viewer rendering
              (.ok earlier.commentable))
          world := { crowd.world with events := events } } ∧
      ∀ other ∈ passed, ((store.load ref).run other.world).1 = .ok earlier := by
  have howner : ((store.source.commentable ref).run crowd.world).1 = .ok earlier.commentable :=
    fetch_commentable_eq_ok_iff.mpr ⟨earlier, hload, rfl⟩
  have hcall : crowd.programs i = store.source.commentable ref >>= fun owner =>
      Sum.inl <$> store.renderRest settings ref viewer rendering owner := by
    rw [hprogram, render_eq_bind]
    exact Program.bind_assoc _ _ _
  obtain ⟨events, hevents⟩ := (store.does_commentable ref).run_of_isLook crowd.world
  obtain ⟨passed, hruns, hpassed⟩ := Crowd.exists_runs_of_looks (fun _ _ => True)
    (fun _ => trivial) (store.does_commentable ref) hcall
  rw [howner, hevents] at hruns
  refine ⟨passed, events, hruns, fun other hother => ?_⟩
  obtain ⟨more, hworld⟩ := hpassed other hother
  rw [hworld]
  exact load_of_events more hload

/-- While the others pause, a call that has an owner shows it with the comments that are stored. -/
theorem exists_runs_of_renderRest {owner : Commentable}
    (hprogram : crowd.programs i =
      Sum.inl <$> store.renderRest settings ref viewer rendering (.ok owner))
    (hload : ((store.load ref).run crowd.world).1 = .ok later) :
    ∃ passed events, Crowd.Runs (fun _ _ => True) crowd passed
        { programs := Function.update crowd.programs i (.done (.inl
            (ThreadView.ofRendering settings ref viewer rendering owner later.comments).value))
          world := { crowd.world with events := events } } ∧
      ∀ other ∈ passed, ((store.load ref).run other.world).1 = .ok later := by
  have hlooks := store.does_renderRest settings ref viewer rendering (.ok owner)
  obtain ⟨events, hevents⟩ := hlooks.run_of_isLook crowd.world
  have hcall : crowd.programs i = store.renderRest settings ref viewer rendering (.ok owner) >>=
      fun result => .done (Sum.inl result) := hprogram
  obtain ⟨passed, hruns, hpassed⟩ := Crowd.exists_runs_of_looks (fun _ _ => True)
    (fun _ => trivial) hlooks hcall
  rw [value_renderRest owner hload, hevents] at hruns
  refine ⟨passed, events, hruns, fun other hother => ?_⟩
  obtain ⟨more, hworld⟩ := hpassed other hother
  rw [hworld]
  exact load_of_events more hload

/-- A save between the two fetches of a call shows: the view has the owner of the former snapshot
and the comments of the new one. -/
theorem exists_runs_torn (hearlier : earlier.validate = .ok ()) (hlater : later.validate = .ok ())
    (hspelled : earlier.IsSpelled ∧ later.IsSpelled) (hformer : earlier.reference = ref)
    (href : later.reference = ref) (hroom : store.HasRoom ref world)
    (hstored : world.content? (store.path ref) = some (Utf8.encode earlier.text))
    (settings : Settings) (viewer : Viewer) (rendering : Rendering) :
    ∃ passed last, Crowd.Runs (fun _ _ => True)
        { programs := fun saves => if saves then Sum.inr <$> store.save later
            else Sum.inl <$> store.source.render settings ref viewer rendering
          world := world } passed last ∧
      last.programs true = .done (.inr (.ok ())) ∧
      last.programs false = .done (.inl (ThreadView.ofRendering settings ref viewer rendering
        earlier.commentable later.comments).value) ∧
      ∀ other ∈ passed ++ [last], ((store.load ref).run other.world).1 = .ok earlier ∨
        ((store.load ref).run other.world).1 = .ok later := by
  have hfirst : ∀ other : World,
      other.content? (store.path ref) = some (Utf8.encode earlier.text) →
        ((store.load ref).run other).1 = .ok earlier := by
    subst hformer
    exact fun other hcontent => load_of_content? hearlier hspelled.1 hcontent
  have hsecond : ∀ other : World,
      other.content? (store.path ref) = some (Utf8.encode later.text) →
        ((store.load ref).run other).1 = .ok later := by
    subst href
    exact fun other hcontent => load_of_content? hlater hspelled.2 hcontent
  let start : Callers Bool :=
    { programs := fun saves => if saves then Sum.inr <$> store.save later
        else Sum.inl <$> store.source.render settings ref viewer rendering
      world := world }
  have hcall : start.programs false =
      Sum.inl <$> store.source.render settings ref viewer rendering := rfl
  obtain ⟨fetching, events, hfetching, hbefore⟩ :=
    exists_runs_of_render hcall (hfirst world hstored)
  let fetched : Callers Bool :=
    { programs := Function.update start.programs false
        (Sum.inl <$> store.renderRest settings ref viewer rendering (.ok earlier.commentable))
      world := { world with events := events } }
  have hheld : fetched.world.content? (store.path ref) = some (Utf8.encode earlier.text) :=
    (congrArg Held.final (held_of_events events)).trans hstored
  have hsave : fetched.programs true = Sum.inr <$> store.save later := rfl
  obtain ⟨saving, after, hsaving, hduring, hafter⟩ :=
    exists_runs_of_save hsave hlater href ⟨hroom.first, hroom.final⟩
  let saved : Callers Bool := store.savingAt later fetched true (.done (.ok ())) after
  have hrest : saved.programs false = Sum.inl <$>
      store.renderRest settings ref viewer rendering (.ok earlier.commentable) := rfl
  obtain ⟨finishing, more, hfinishing, hlast⟩ :=
    exists_runs_of_renderRest hrest (hsecond after hafter)
  refine ⟨_, _, (hfetching.trans hsaving).trans hfinishing, rfl, ?_, ?_⟩
  · simp only [Function.update_self]
  · simp only [List.forall_mem_append, List.forall_mem_singleton]
    refine ⟨⟨⟨fun other hother => Or.inl (hbefore other hother), fun other hother => ?_⟩,
      fun other hother => Or.inr (hlast other hother)⟩, ?_⟩
    · rcases hduring other hother with hsame | hwhole
      · exact Or.inl (hfirst _ (hsame.trans hheld))
      · exact Or.inr (hsecond _ hwhole)
    · exact Or.inr (load_of_events more (hsecond after hafter))

end

/-- A thread without comments, whose author hides comments. -/
def muted : Snapshot where
  commentable :=
    { reference := { kind := .article, id := 7 }, user := ⟨1⟩, anyCommentsHidden := true }

/-- The same thread with a comment, once its author hides none. -/
def unmuted : Snapshot where
  commentable := { reference := { kind := .article, id := 7 }, user := ⟨1⟩ }
  comments := [{ id := ⟨1⟩, commentable := { kind := .article, id := 7 }, user := ⟨1⟩
                 createdAt := .epoch }]

/-- A disk on which the first of the two is stored. -/
def storing : World where
  disk := (Disk.putDirectory {} ["snapshots"]).putFile ["snapshots", "article-7.json"]
    (Utf8.encode muted.text)

/-- The owner of the first and the comments of the second make a view that neither has. -/
theorem exists_view_of_muted_unmuted :
    let rendered := ThreadView.ofRendering {} muted.reference .anonymous (.thread none .top)
    ∃ view, (rendered muted.commentable unmuted.comments).value = .ok view ∧
      (rendered muted.commentable muted.comments).value ≠ .ok view ∧
      (rendered unmuted.commentable unmuted.comments).value ≠ .ok view := by
  intro rendered
  obtain ⟨view, hview, htotal, hvisible⟩ : ∃ view,
      (rendered muted.commentable unmuted.comments).value = .ok view ∧
        view.totalComments = 1 ∧ view.allVisible = false := ⟨_, rfl, rfl, rfl⟩
  obtain ⟨first, hfirst, hempty⟩ : ∃ view,
      (rendered muted.commentable muted.comments).value = .ok view ∧
        view.totalComments = 0 := ⟨_, rfl, rfl⟩
  obtain ⟨second, hsecond, hall⟩ : ∃ view,
      (rendered unmuted.commentable unmuted.comments).value = .ok view ∧
        view.allVisible = true := ⟨_, rfl, rfl⟩
  refine ⟨view, hview, ?_, ?_⟩
  · rw [hfirst]
    rintro ⟨⟩
    rw [htotal] at hempty
    cases hempty
  · rw [hsecond]
    rintro ⟨⟩
    rw [hvisible] at hall
    cases hall

/-- In what is stored a directory of snapshots stands open, and the first of the two lies there. -/
theorem storing_spec : HasRoom { base := "/" } muted.reference storing ∧
    storing.content? (path { base := "/" } muted.reference) = some (Utf8.encode muted.text) := by
  obtain ⟨-, place, hplace, hfree⟩ := hasRoom_of_empty
  have hpath : Disk.leadsTo (Disk.putDirectory {} ["snapshots"]) []
      (path { base := "/" } muted.reference) = .ok ["snapshots", "article-7.json"] := by
    have hname : path { base := "/" } muted.reference = "/snapshots/article-7.json" := by
      decide +kernel
    rw [hname]
    rfl
  obtain rfl := Except.ok.inj (hpath.symm.trans hplace)
  obtain ⟨hfile, hdiffers⟩ :=
    Disk.differsOnlyAt_putFile (Disk.mayHoldFile_of_leadsTo hplace hfree) (Utf8.encode muted.text)
  exact ⟨hasRoom_of_empty.of_differs rfl hdiffers, World.content?_eq_some_iff.mpr
    ⟨_, hdiffers.leadsTo_eq_ok_iff.mpr hpath, hfile⟩⟩

/-- A run on which the second of the two is saved between the fetches of a call. -/
theorem exists_runs_of_muted_unmuted :
    ∃ passed last, Crowd.Runs (fun _ _ => True)
        { programs := fun saves => if saves then Sum.inr <$> save { base := "/" } unmuted
            else Sum.inl <$> (source { base := "/" }).render {} muted.reference .anonymous
              (.thread none .top)
          world := storing } passed last ∧
      last.programs true = .done (.inr (.ok ())) ∧
      last.programs false = .done (.inl (ThreadView.ofRendering {} muted.reference .anonymous
        (.thread none .top) muted.commentable unmuted.comments).value) ∧
      ∀ other ∈ passed ++ [last],
        ((load { base := "/" } muted.reference).run other.world).1 = .ok muted ∨
          ((load { base := "/" } muted.reference).run other.world).1 = .ok unmuted := by
  have hmuted : muted.validate = .ok () := Snapshot.validate_new _
  have hunmuted : unmuted.validate = .ok () := by decide +kernel
  have hspelled : unmuted.IsSpelled := by
    intro c hc
    obtain rfl := List.mem_singleton.mp hc
    exact ⟨"1970-01-01T00:00:00Z", by decide +kernel⟩
  have href : unmuted.reference = muted.reference := rfl
  exact exists_runs_torn hmuted hunmuted ⟨Snapshot.isSpelled_new _, hspelled⟩ rfl href
    storing_spec.1 storing_spec.2 {} .anonymous (.thread none .top)

/-- On this run the view keeps nothing of the earlier snapshot but that its author hid comments. -/
theorem render_beside_others_unmuted :
    let store : Store := { base := "/" }
    let call := store.source.render {} muted.reference .anonymous (.thread none .top)
    ∃ passed last view, Crowd.Runs (fun _ _ => True)
        { programs := fun saves => if saves then Sum.inr <$> store.save unmuted
            else Sum.inl <$> call
          world := storing } passed last ∧
      last.programs false = .done (.inl (.ok view)) ∧
      ∃ here there earlier later alone, [here, there].Sublist (passed.map (·.world)) ∧
        ((store.load muted.reference).run here).1 = .ok earlier ∧
        ((store.load muted.reference).run there).1 = .ok later ∧
        (call.run there).1 = .ok alone ∧
        view = { alone with
          allVisible := allVisible earlier.commentable later.comments .anonymous } ∧
        (earlier.commentable.anyCommentsHidden = later.commentable.anyCommentsHidden →
          view = alone) := by
  intro store call
  obtain ⟨view, hview, -, -⟩ := exists_view_of_muted_unmuted
  obtain ⟨passed, last, hruns, -, hdone, -⟩ := exists_runs_of_muted_unmuted
  rw [hview] at hdone
  exact ⟨passed, last, view, hruns, hdone,
    render_beside_others store {} muted.reference .anonymous (.thread none .top) rfl hruns hdone⟩

/-- A call may return a view that no snapshot has that was stored while it ran, although the only
other caller saves once and succeeds. -/
theorem not_render_of_one_snapshot :
    let store : Store := { base := "/" }
    let call := store.source.render {} muted.reference .anonymous (.thread none .top)
    ∃ passed last view, Crowd.Runs (fun _ _ => True)
        { programs := fun saves => if saves then Sum.inr <$> store.save unmuted
            else Sum.inl <$> call
          world := storing } passed last ∧
      last.programs true = .done (.inr (.ok ())) ∧ last.programs false = .done (.inl (.ok view)) ∧
      ∀ moment ∈ passed ++ [last], (call.run moment.world).1 ≠ .ok view := by
  intro store call
  obtain ⟨view, hview, hmuted, hunmuted⟩ := exists_view_of_muted_unmuted
  obtain ⟨passed, last, hruns, hsaved, hdone, hloads⟩ := exists_runs_of_muted_unmuted
  rw [hview] at hdone
  refine ⟨passed, last, view, hruns, hsaved, hdone, fun moment hmoment => ?_⟩
  rcases hloads moment hmoment with hload | hload
  · rw [value_render_of_load hload]
    exact hmuted
  · rw [value_render_of_load hload]
    exact hunmuted

end Store

end Discussion
