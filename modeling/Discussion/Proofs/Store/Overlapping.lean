import Discussion.Proofs.Store.Stages

/-!
# Saves that overlap

All saves of one commentable write under the same first name.  They are atomic side by side as
long as none of them acts while another is writing there or clearing it; otherwise one may move
the unfinished file of another.
-/

namespace Discussion

open Disk

/-- Whether a program is about to add to a file, or to remove one. -/
def Program.IsMidway {α : Type} : Program α → Prop
  | .perform (.append _ _) _ | .perform (.remove _) _ => True
  | _ => False

/-- Whether no other program of a crowd is about to add to a file, or to remove one. -/
def Crowd.IsTurnOf {ι α : Type} (crowd : Crowd ι α) (i : ι) : Prop :=
  ∀ j, j ≠ i → ¬ (crowd.programs j).IsMidway

namespace Store

variable {store : Store} {snapshot : Snapshot} {ref : Reference} {world after : World}

/-! ## Stages of several saves -/

/-- Whether a save has begun to write, or has to clear what it wrote. -/
def Stage.IsBusy : Stage → Prop
  | .filling | .clearing _ => True
  | _ => False

/-- Whether a save has moved its file. -/
def Stage.HasMoved : Stage → Prop
  | .reporting | .done (.ok _) => True
  | _ => False

namespace Stage.Advances

variable {text : Utf8.Bytes} {stage next : Stage} {held later : Held}

theorem first_of_filling (h : stage.Advances text held next later) (hnext : next = .filling) :
    later.first = some [] := by
  cases h with
  | made => rfl
  | _ => cases hnext

/-- A save that is no longer busy leaves nothing under the first name, or its whole text, or
what was there when it had moved its file. -/
theorem first_of_not_isBusy (h : stage.Advances text held next later)
    (hfirst : stage = .filling → held.first = some []) (hnext : ¬ next.IsBusy) :
    later.first = none ∨ later.first = some text ∨
      (stage = .reporting ∧ next = .done (.ok ()) ∧ later = held) := by
  cases h with
  | made | unmade | unfilled | unmoved => exact absurd trivial hnext
  | filled hformer =>
      rw [hfirst rfl] at hformer
      obtain rfl := Option.some.inj hformer
      exact Or.inr (Or.inl rfl)
  | moved | cleared => exact Or.inl rfl
  | reported => exact Or.inr (Or.inr ⟨rfl, rfl, rfl⟩)

/-- Only a file that is moved takes the place of the former one. -/
theorem final_cases (h : stage.Advances text held next later) :
    (later.final = held.final ∧ (next.HasMoved → stage.HasMoved)) ∨
      (stage = .moving ∧ ∃ bytes, held.first = some bytes ∧ later.final = some bytes) := by
  cases h with
  | moved hfirst => exact Or.inr ⟨rfl, _, hfirst, rfl⟩
  | reported => exact Or.inl ⟨rfl, fun _ => trivial⟩
  | _ => exact Or.inl ⟨rfl, False.elim⟩

end Stage.Advances

/-- A save leaves what is stored until it moves its file. -/
theorem final_eq_of_step {stage : Stage} {program : Program (Except Fault Unit)}
    (h : (stage.program store snapshot).Step world program after) (hmoving : stage ≠ .moving) :
    (store.held snapshot.reference after).final = (store.held snapshot.reference world).final := by
  obtain ⟨next, -, hcomes⟩ := exists_comes h
  rcases hcomes.advances.final_cases with ⟨hsame, -⟩ | ⟨hstage, -⟩
  · exact hsame
  · exact absurd hstage hmoving

/-- What holds of saves none of which acts while another is busy: only whole texts are moved. -/
structure InTurn {ι : Type} (IsWhole : Utf8.Bytes → Prop) (former : Option Utf8.Bytes)
    (stages : ι → Stage) (held : Held) : Prop where
  busy : ∀ i j, (stages i).IsBusy → (stages j).IsBusy → i = j
  filling : ∀ i, stages i = .filling → held.first = some []
  moving : (∀ j, ¬ (stages j).IsBusy) → ∀ i, stages i = .moving →
    ∀ bytes, held.first = some bytes → IsWhole bytes
  final : held.final = former ∨ ∃ bytes, IsWhole bytes ∧ held.final = some bytes
  moved : ∀ i, (stages i).HasMoved → ∃ bytes, IsWhole bytes ∧ held.final = some bytes

variable {ι : Type} [DecidableEq ι]

theorem InTurn.advance {IsWhole : Utf8.Bytes → Prop} {former : Option Utf8.Bytes}
    {stages : ι → Stage} {held later : Held} {i : ι} {next : Stage} {text : Utf8.Bytes}
    (h : InTurn IsWhole former stages held) (hothers : ∀ j, j ≠ i → ¬ (stages j).IsBusy)
    (htext : IsWhole text) (hadvances : (stages i).Advances text held next later) :
    InTurn IsWhole former (Function.update stages i next) later := by
  have hbusy : ∀ j, (Function.update stages i next j).IsBusy → j = i := by
    intro j hj
    by_contra hne
    rw [Function.update_of_ne hne] at hj
    exact hothers j hne hj
  have hidle : ¬ (stages i).IsBusy → ∀ j, ¬ (stages j).IsBusy := by
    intro hi j
    by_cases hj : j = i
    · rwa [hj]
    · exact hothers j hj
  -- What is moved is whole, since nobody is busy.
  have hfinal : (later.final = held.final ∧ (next.HasMoved → (stages i).HasMoved)) ∨
      ∃ bytes, IsWhole bytes ∧ later.final = some bytes := by
    rcases hadvances.final_cases with hsame | ⟨hmoving, bytes, hfirst, hlater⟩
    · exact Or.inl hsame
    · have hnot : ¬ (stages i).IsBusy := by
        rw [hmoving]
        exact id
      exact Or.inr ⟨bytes, h.moving (hidle hnot) i hmoving bytes hfirst, hlater⟩
  refine ⟨fun j k hj hk => (hbusy j hj).trans (hbusy k hk).symm, ?_, ?_, ?_, ?_⟩
  · intro j hj
    have hji : j = i := hbusy j (by rw [hj]; trivial)
    rw [hji, Function.update_self] at hj
    exact hadvances.first_of_filling hj
  · intro hnobody j hj bytes hbytes
    have hnext : ¬ next.IsBusy := by
      have hi := hnobody i
      rwa [Function.update_self] at hi
    rcases hadvances.first_of_not_isBusy (h.filling i) hnext with
      hnone | hwhole | ⟨hreporting, hdone, rfl⟩
    · rw [hnone] at hbytes
      cases hbytes
    · rw [hwhole] at hbytes
      obtain rfl := Option.some.inj hbytes
      exact htext
    · have hne : j ≠ i := by
        rintro rfl
        rw [Function.update_self, hdone] at hj
        cases hj
      rw [Function.update_of_ne hne] at hj
      have hnot : ¬ (stages i).IsBusy := by
        rw [hreporting]
        exact id
      exact h.moving (hidle hnot) j hj bytes hbytes
  · rcases hfinal with ⟨hsame, -⟩ | hwhole
    · rw [hsame]
      exact h.final
    · exact Or.inr hwhole
  · intro j hj
    rcases hfinal with ⟨hsame, hearlier⟩ | hwhole
    · rw [hsame]
      by_cases hji : j = i
      · rw [hji, Function.update_self] at hj
        exact h.moved i (hearlier hj)
      · rw [Function.update_of_ne hji] at hj
        exact h.moved j hj
    · exact hwhole

/-! ## Saves side by side -/

/-- Saves of a store that have come to some stages. -/
def underWay (store : Store) (snapshots : ι → Snapshot) (stages : ι → Stage) (world : World) :
    Crowd ι (Except Fault Unit) :=
  { programs := fun i => (stages i).program store (snapshots i), world := world }

/-- The first stage of a save. -/
def Stage.start (snapshot : Snapshot) : Stage :=
  match snapshot.validate with
  | .error fault => .done (.error fault)
  | .ok _ => .making

theorem start_of_valid (h : snapshot.validate = .ok ()) : Stage.start snapshot = .making := by
  rw [Stage.start, h]

theorem start_cases (snapshot : Snapshot) :
    (∃ fault, Stage.start snapshot = .done (.error fault)) ∨
      (Stage.start snapshot = .making ∧ snapshot.validate = .ok ()) := by
  cases hvalid : snapshot.validate with
  | error fault =>
      left
      rw [Stage.start, hvalid]
      exact ⟨fault, rfl⟩
  | ok valid => exact Or.inr ⟨start_of_valid hvalid, rfl⟩

theorem not_isBusy_start (snapshot : Snapshot) : ¬ (Stage.start snapshot).IsBusy := by
  rcases start_cases snapshot with ⟨fault, hdone⟩ | ⟨hmaking, -⟩
  · rw [hdone]
    exact id
  · rw [hmaking]
    exact id

theorem save_eq_start (store : Store) (snapshot : Snapshot) :
    store.save snapshot = (Stage.start snapshot).program store snapshot := by
  cases hvalid : snapshot.validate with
  | error fault =>
      rw [save, Stage.start, hvalid]
      rfl
  | ok valid => rw [save_eq_making store snapshot hvalid, Stage.start, hvalid]

theorem isMidway_program_iff {stage : Stage} :
    (stage.program store snapshot).IsMidway ↔ stage.IsBusy := by
  cases stage <;> exact Iff.rfl

theorem eq_done_of_program {stage : Stage} {result : Except Fault Unit}
    (h : stage.program store snapshot = .done result) : stage = .done result := by
  cases stage with
  | done other =>
      cases h
      rfl
  | _ => cases h

variable {snapshots : ι → Snapshot} {stages : ι → Stage} {before : World}

theorem underWay_update (i : ι) (next : Stage) :
    store.underWay snapshots (Function.update stages i next) after =
      { programs := Function.update (store.underWay snapshots stages world).programs i
          (next.program store (snapshots i))
        world := after } := by
  rw [underWay, Crowd.mk.injEq]
  exact ⟨funext fun j => Function.apply_update
    (fun j (stage : Stage) => stage.program store (snapshots j)) stages i next j, rfl⟩

theorem step_underWay {may : Crowd ι (Except Fault Unit) → ι → Prop} {i : ι}
    {stage next : Stage} (hmay : may (store.underWay snapshots stages world) i)
    (hstage : stages i = stage)
    (h : (stage.program store (snapshots i)).Step world (next.program store (snapshots i))
      after) :
    Crowd.Step may (store.underWay snapshots stages world)
      (store.underWay snapshots (Function.update stages i next) after) := by
  subst hstage
  rw [underWay_update]
  exact .act hmay h

/-- A step of some saves takes one of them from one stage to another. -/
theorem exists_of_step_underWay {may : Crowd ι (Except Fault Unit) → ι → Prop}
    {crowd : Crowd ι (Except Fault Unit)}
    (h : Crowd.Step may (store.underWay snapshots stages world) crowd) :
    ∃ i next after, may (store.underWay snapshots stages world) i ∧
      store.Comes (snapshots i) (stages i) world next after ∧
      crowd = store.underWay snapshots (Function.update stages i next) after := by
  obtain ⟨hmay, hstep⟩ := h
  obtain ⟨next, rfl, hcomes⟩ := exists_comes hstep
  exact ⟨_, next, _, hmay, hcomes, (underWay_update _ _).symm⟩

omit [DecidableEq ι] in
theorem saves_eq_underWay (store : Store) (snapshots : ι → Snapshot) (world : World) :
    { programs := fun i => store.save (snapshots i), world := world } =
      store.underWay snapshots (fun i => .start (snapshots i)) world := by
  rw [underWay, Crowd.mk.injEq]
  exact ⟨funext fun i => save_eq_start store (snapshots i), rfl⟩

/-- The whole text of one of some valid snapshots. -/
def IsWholeOf (snapshots : ι → Snapshot) (bytes : Utf8.Bytes) : Prop :=
  ∃ i, (snapshots i).validate = .ok () ∧ bytes = Utf8.encode (snapshots i).text

/-- What holds while saves of one commentable take turns. -/
structure TakesTurns (store : Store) (snapshots : ι → Snapshot) (ref : Reference)
    (before : World) (stages : ι → Stage) (world : World) : Prop where
  valid : ∀ i, (∃ fault, stages i = .done (.error fault)) ∨ (snapshots i).validate = .ok ()
  inTurn : InTurn (IsWholeOf snapshots) (before.content? (store.path ref)) stages
    (store.held ref world)
  working : world.working = before.working
  differs : DiffersOnlyAt before.disk world.disk (store.WritesAt ref before)

omit [DecidableEq ι] in
theorem takesTurns_start (store : Store) (snapshots : ι → Snapshot) (ref : Reference)
    (before : World) :
    store.TakesTurns snapshots ref before (fun i => .start (snapshots i)) before := by
  have hnot : ∀ i, ¬ (Stage.start (snapshots i)).HasMoved ∧
      Stage.start (snapshots i) ≠ .filling ∧ Stage.start (snapshots i) ≠ .moving := by
    intro i
    rcases start_cases (snapshots i) with ⟨fault, hdone⟩ | ⟨hmaking, -⟩
    · rw [hdone]
      exact ⟨id, nofun, nofun⟩
    · rw [hmaking]
      exact ⟨id, nofun, nofun⟩
  refine ⟨fun i => (start_cases (snapshots i)).imp id And.right, ?_, rfl, .refl _ _⟩
  exact
    { busy := fun i _ hi => absurd hi (not_isBusy_start (snapshots i))
      filling := fun i hi => absurd hi (hnot i).2.1
      moving := fun _ i hi => absurd hi (hnot i).2.2
      final := Or.inl rfl
      moved := fun i hi => absurd hi (hnot i).1 }

theorem TakesTurns.step (hrefs : ∀ i, (snapshots i).reference = ref)
    (h : store.TakesTurns snapshots ref before stages world)
    {crowd : Crowd ι (Except Fault Unit)}
    (hstep : Crowd.Step Crowd.IsTurnOf (store.underWay snapshots stages world) crowd) :
    ∃ stages world, crowd = store.underWay snapshots stages world ∧
      store.TakesTurns snapshots ref before stages world := by
  obtain ⟨i, next, after, hturn, hcomes, rfl⟩ := exists_of_step_underWay hstep
  have hadvances := hcomes.advances
  rw [hrefs i] at hadvances
  have hvalid : (snapshots i).validate = .ok () := by
    refine (h.valid i).resolve_left ?_
    rintro ⟨fault, hdone⟩
    rw [hdone] at hadvances
    cases hadvances
  refine ⟨_, after, rfl, fun j => ?_, ?_, hcomes.working.trans h.working, ?_⟩
  · by_cases hj : j = i
    · rw [hj]
      exact Or.inr hvalid
    · rw [Function.update_of_ne hj]
      exact h.valid j
  · refine h.inTurn.advance (fun j hj hbusy => ?_) ⟨i, hvalid, rfl⟩ hadvances
    exact hturn j hj (isMidway_program_iff.mpr hbusy)
  · refine h.differs.trans (hcomes.differs.mono fun location => ?_)
    rw [hrefs i, WritesAt, h.working, h.differs.leadsTo_eq_ok_iff, h.differs.leadsTo_eq_ok_iff]
    exact id

/-- A snapshot whose whole text is under its name is loaded. -/
theorem load_of_content? (hvalid : snapshot.validate = .ok ()) (hspelled : snapshot.IsSpelled)
    (h : world.content? (store.path snapshot.reference) = some (Utf8.encode snapshot.text)) :
    ((store.load snapshot.reference).run world).1 = .ok snapshot := by
  rw [value_load_eq_ok_iff, Snapshot.ofRead_eq_ok_iff]
  exact ⟨_, read_eq_ok_iff.mpr (World.content?_eq_some_iff.mp h),
    Snapshot.ofText_encode_text hvalid hspelled⟩

/-- What some saves of one commentable have done to a world so far. -/
structure SavedWhole (store : Store) (snapshots : ι → Snapshot) (ref : Reference)
    (before : World) (crowd : Crowd ι (Except Fault Unit)) : Prop where
  /-- What is stored is what was stored before, or a whole snapshot. -/
  whole : crowd.world.content? (store.path ref) = before.content? (store.path ref) ∨
    ∃ i, (snapshots i).validate = .ok () ∧
      crowd.world.content? (store.path ref) = some (Utf8.encode (snapshots i).text)
  /-- Once one of them has succeeded, one of the snapshots is loaded. -/
  loads : ∀ i, crowd.programs i = .done (.ok ()) →
    ∃ j, ((store.load ref).run crowd.world).1 = .ok (snapshots j)
  differs : DiffersOnlyAt before.disk crowd.world.disk (store.WritesAt ref before)

/-- Saves of one commentable are atomic side by side, as long as none of them acts while
another has begun to write or has to clear what it wrote. -/
theorem savedWhole_of_reaches (hrefs : ∀ i, (snapshots i).reference = ref)
    (hspelled : ∀ i, (snapshots i).IsSpelled) {crowd : Crowd ι (Except Fault Unit)}
    (h : Crowd.Reaches Crowd.IsTurnOf
      { programs := fun i => store.save (snapshots i), world := before } crowd) :
    store.SavedWhole snapshots ref before crowd := by
  have hrun : ∃ stages world, crowd = store.underWay snapshots stages world ∧
      store.TakesTurns snapshots ref before stages world := by
    induction h with
    | refl =>
        exact ⟨_, before, saves_eq_underWay store snapshots before,
          takesTurns_start store snapshots ref before⟩
    | tail _ hstep ih =>
        obtain ⟨stages, world, rfl, hturns⟩ := ih
        exact hturns.step hrefs hstep
  obtain ⟨stages, world, rfl, hturns⟩ := hrun
  refine ⟨?_, fun i hdone => ?_, hturns.differs⟩
  · rcases hturns.inTurn.final with hsame | ⟨_, ⟨i, hvalid, rfl⟩, hfinal⟩
    · exact Or.inl hsame
    · exact Or.inr ⟨i, hvalid, hfinal⟩
  · have hmoved : (stages i).HasMoved := by
      rw [eq_done_of_program hdone]
      trivial
    obtain ⟨_, ⟨j, hvalid, rfl⟩, hfinal⟩ := hturns.inTurn.moved i hmoved
    refine ⟨j, ?_⟩
    rw [← hrefs j]
    refine load_of_content? hvalid (hspelled j) ?_
    rw [hrefs j]
    exact hfinal

/-! ## Runs of two saves -/

theorem isTurnOf_underWay {i : ι} (h : ∀ j, j ≠ i → ¬ (stages j).IsBusy) (stage : Stage)
    (world : World) :
    (store.underWay snapshots (Function.update stages i stage) world).IsTurnOf i := by
  intro j hj hmidway
  have hbusy := isMidway_program_iff.mp hmidway
  rw [Function.update_of_ne hj] at hbusy
  exact h j hj hbusy

section

variable (may : Crowd ι (Except Fault Unit) → ι → Prop) (stages : ι → Stage) (i : ι)

/-- A save that may act twice writes its text under the first name. -/
theorem exists_reaches_moving (hrefs : ∀ i, (snapshots i).reference = ref)
    (hroom : store.HasRoom ref world) (hi : stages i = .making)
    (hmay : ∀ stage after,
      may (store.underWay snapshots (Function.update stages i stage) after) i) :
    ∃ after, Crowd.Reaches may (store.underWay snapshots stages world)
        (store.underWay snapshots (Function.update stages i .moving) after) ∧
      store.HasRoom ref after ∧
      (store.held ref after).first = some (Utf8.encode (snapshots i).text) := by
  obtain rfl := hrefs i
  obtain ⟨made, hmake, hroom, hempty⟩ := hroom.make
  obtain ⟨filled, hfill, hroom, hwhole⟩ := hroom.fill hempty
  have hfirst := hmay (stages i) world
  rw [Function.update_eq_self] at hfirst
  refine ⟨filled, ?_, hroom, hwhole⟩
  have hmade := step_underWay hfirst hi hmake
  have hfilled := step_underWay (hmay .filling made) (Function.update_self i _ _) hfill
  rw [Function.update_idem] at hfilled
  exact (Relation.ReflTransGen.single hmade).tail hfilled

/-- A save that may act twice moves what is under the first name, and succeeds. -/
theorem exists_reaches_done {bytes : Utf8.Bytes} (hrefs : ∀ i, (snapshots i).reference = ref)
    (hroom : store.HasRoom ref world) (hi : stages i = .moving)
    (hbytes : (store.held ref world).first = some bytes)
    (hmay : ∀ stage after,
      may (store.underWay snapshots (Function.update stages i stage) after) i) :
    ∃ after, Crowd.Reaches may (store.underWay snapshots stages world)
        (store.underWay snapshots (Function.update stages i (.done (.ok ()))) after) ∧
      (store.held ref after).final = some bytes := by
  obtain rfl := hrefs i
  obtain ⟨moved, hmove, hfinal⟩ := hroom.move hbytes
  obtain ⟨reported, hreport, hheld⟩ := exists_report store (snapshots i) moved
  have hfirst := hmay (stages i) world
  rw [Function.update_eq_self] at hfirst
  refine ⟨reported, ?_, hheld ▸ hfinal⟩
  have hmoved := step_underWay hfirst hi hmove
  have hreported := step_underWay (hmay .reporting moved) (Function.update_self i _ _) hreport
  rw [Function.update_idem] at hreported
  exact (Relation.ReflTransGen.single hmoved).tail hreported

end

theorem not_isBusy_update {i : ι} {next : Stage} (h : ∀ j, ¬ (stages j).IsBusy)
    (hnext : ¬ next.IsBusy) (j : ι) : ¬ (Function.update stages i next j).IsBusy := by
  by_cases hj : j = i
  · rwa [hj, Function.update_self]
  · rw [Function.update_of_ne hj]
    exact h j

variable {i j : ι}

/-- Even in turn, a save may move the text of another. -/
theorem exists_reaches_other (hij : i ≠ j) (hrefs : ∀ i, (snapshots i).reference = ref)
    (hi : (snapshots i).validate = .ok ()) (hj : (snapshots j).validate = .ok ())
    (hroom : store.HasRoom ref before) :
    ∃ crowd, Crowd.Reaches Crowd.IsTurnOf
        { programs := fun k => store.save (snapshots k), world := before } crowd ∧
      crowd.programs i = .done (.ok ()) ∧
      crowd.world.content? (store.path ref) = some (Utf8.encode (snapshots j).text) := by
  rw [saves_eq_underWay]
  let start : ι → Stage := fun k => .start (snapshots k)
  have hstart : ∀ k, ¬ (start k).IsBusy := fun k => not_isBusy_start (snapshots k)
  obtain ⟨written, hwrite, hroom, -⟩ := exists_reaches_moving Crowd.IsTurnOf start i hrefs hroom
    (start_of_valid hi) (isTurnOf_underWay fun k _ => hstart k)
  let second := Function.update start i .moving
  have hsecond : ∀ k, ¬ (second k).IsBusy := not_isBusy_update hstart id
  have hmaking : second j = .making :=
    (Function.update_of_ne hij.symm _ _).trans (start_of_valid hj)
  obtain ⟨rewritten, hrewrite, hroom, hwhole⟩ := exists_reaches_moving Crowd.IsTurnOf second j
    hrefs hroom hmaking (isTurnOf_underWay fun k _ => hsecond k)
  let third := Function.update second j .moving
  have hthird : ∀ k, ¬ (third k).IsBusy := not_isBusy_update hsecond id
  have hmoving : third i = .moving :=
    (Function.update_of_ne hij _ _).trans (Function.update_self i _ _)
  obtain ⟨last, hdone, hfinal⟩ := exists_reaches_done Crowd.IsTurnOf third i hrefs hroom hmoving
    hwhole (isTurnOf_underWay fun k _ => hthird k)
  refine ⟨_, (hwrite.trans hrewrite).trans hdone, ?_, hfinal⟩
  simp only [underWay, Function.update_self, Stage.program]

/-- A save that begins while another is about to move its file empties that file, and the
other succeeds without leaving a snapshot. -/
theorem exists_reaches_emptied (hij : i ≠ j) (hrefs : ∀ i, (snapshots i).reference = ref)
    (hi : (snapshots i).validate = .ok ()) (hj : (snapshots j).validate = .ok ())
    (hroom : store.HasRoom ref before) :
    ∃ crowd, Crowd.Reaches (fun _ _ => True)
        { programs := fun k => store.save (snapshots k), world := before } crowd ∧
      crowd.programs i = .done (.ok ()) ∧
      crowd.world.content? (store.path ref) = some [] := by
  rw [saves_eq_underWay]
  let start : ι → Stage := fun k => .start (snapshots k)
  obtain ⟨written, hwrite, hroom, -⟩ := exists_reaches_moving (fun _ _ => True) start i hrefs hroom
    (start_of_valid hi) fun _ _ => trivial
  let second := Function.update start i .moving
  have hmaking : second j = .making :=
    (Function.update_of_ne hij.symm _ _).trans (start_of_valid hj)
  obtain rfl := hrefs j
  obtain ⟨emptied, hmake, hroom, hempty⟩ := hroom.make
  have hmoving : Function.update second j .filling i = .moving :=
    (Function.update_of_ne hij _ _).trans (Function.update_self i _ _)
  obtain ⟨last, hdone, hfinal⟩ := exists_reaches_done (fun _ _ => True) _ i hrefs hroom hmoving
    hempty fun _ _ => trivial
  refine ⟨_, (hwrite.tail (step_underWay trivial hmaking hmake)).trans hdone, ?_, hfinal⟩
  simp only [underWay, Function.update_self, Stage.program]

omit [DecidableEq ι] in
/-- An empty file is no snapshot. -/
theorem not_savedWhole_of_emptied {crowd : Crowd ι (Except Fault Unit)}
    (hdone : crowd.programs i = .done (.ok ()))
    (hempty : crowd.world.content? (store.path ref) = some []) :
    ¬ store.SavedWhole snapshots ref before crowd := by
  intro h
  obtain ⟨j, hload⟩ := h.loads i hdone
  obtain ⟨bytes, hread, htext⟩ := Snapshot.ofRead_eq_ok_iff.mp (value_load_eq_ok_iff.mp hload)
  have hbytes := World.content?_eq_some_iff.mpr (read_eq_ok_iff.mp hread)
  obtain rfl := Option.some.inj (hempty.symm.trans hbytes)
  have hnone : Snapshot.read? (Utf8.decode []) = none := by decide +kernel
  rw [Snapshot.ofText_eq_ok_iff, hnone] at htext
  cases htext.1

theorem hasRoom_of_empty :
    HasRoom { base := "/" } { kind := .article, id := 7 }
      { disk := Disk.putDirectory {} ["snapshots"] } := by
  have hfirst : tempPath { base := "/" } { kind := .article, id := 7 } =
      "/snapshots/.article-7.json.tmp" := by decide +kernel
  have hfinal : path { base := "/" } { kind := .article, id := 7 } =
      "/snapshots/article-7.json" := by decide +kernel
  have hfree : ∀ name, ¬ (Disk.putDirectory {} ["snapshots"]).IsDirectoryAt
      ["snapshots", name] := by
    rintro name ⟨inside, hinside⟩
    cases hinside
  refine ⟨⟨["snapshots", ".article-7.json.tmp"], ?_, hfree _⟩,
    ["snapshots", "article-7.json"], ?_, hfree _⟩
  · rw [hfirst]
    rfl
  · rw [hfinal]
    rfl

/-- The first of two saves moves the file of the second. -/
theorem savedWhole_of_other :
    let store : Store := { base := "/" }
    let ref : Reference := { kind := .article, id := 7 }
    let snapshots : Bool → Snapshot := fun late =>
      { commentable := { reference := ref, user := { value := if late then 2 else 1 } } }
    let before : World := { disk := Disk.putDirectory {} ["snapshots"] }
    (∀ late, (snapshots late).reference = ref) ∧ (∀ late, (snapshots late).IsSpelled) ∧
      ∃ crowd, Crowd.Reaches Crowd.IsTurnOf
          { programs := fun late => store.save (snapshots late), world := before } crowd ∧
        crowd.programs false = .done (.ok ()) ∧
        crowd.world.content? (store.path ref) = some (Utf8.encode (snapshots true).text) ∧
        store.SavedWhole snapshots ref before crowd := by
  intro store ref snapshots before
  have hrefs : ∀ late, (snapshots late).reference = ref := fun _ => rfl
  have hvalid : ∀ late, (snapshots late).validate = .ok () := fun _ => Snapshot.validate_new _
  have hspelled : ∀ late, (snapshots late).IsSpelled := fun _ => Snapshot.isSpelled_new _
  have hroom : store.HasRoom ref before := hasRoom_of_empty
  obtain ⟨crowd, hreaches, hdone, hother⟩ :=
    exists_reaches_other Bool.false_ne_true hrefs (hvalid false) (hvalid true) hroom
  exact ⟨hrefs, hspelled, crowd, hreaches, hdone, hother,
    savedWhole_of_reaches hrefs hspelled hreaches⟩

/-- When they do not take turns, the first of two saves may succeed although no snapshot can be
loaded afterwards. -/
theorem not_savedWhole_of_overlap :
    let store : Store := { base := "/" }
    let ref : Reference := { kind := .article, id := 7 }
    let snapshots : Bool → Snapshot := fun late =>
      { commentable := { reference := ref, user := { value := if late then 2 else 1 } } }
    let before : World := { disk := Disk.putDirectory {} ["snapshots"] }
    ∃ crowd, Crowd.Reaches (fun _ _ => True)
        { programs := fun late => store.save (snapshots late), world := before } crowd ∧
      crowd.programs false = .done (.ok ()) ∧
      crowd.world.content? (store.path ref) = some [] ∧
      ¬ store.SavedWhole snapshots ref before crowd := by
  intro store ref snapshots before
  have hrefs : ∀ late, (snapshots late).reference = ref := fun _ => rfl
  have hvalid : ∀ late, (snapshots late).validate = .ok () := fun _ => Snapshot.validate_new _
  have hroom : store.HasRoom ref before := hasRoom_of_empty
  obtain ⟨crowd, hreaches, hdone, hempty⟩ :=
    exists_reaches_emptied Bool.false_ne_true hrefs (hvalid false) (hvalid true) hroom
  exact ⟨crowd, hreaches, hdone, hempty, not_savedWhole_of_emptied hdone hempty⟩

end Store

end Discussion
