import Discussion.Command.Run
import Discussion.Proofs.Settings.Confinement

/-!
# Settings files that are reset

A forced reset copies the settings file to a backup that is named for the present second, and then
writes the defaults to it.  A backup of the same name is overwritten.  So what a reset has found is
in its backup until another reset in the same second finds something else.
-/

namespace Discussion

open Disk

namespace Environment

variable {palette : Palette} {path stamp : String} {world after : World} {bytes : Utf8.Bytes}

/-- The path of the backup of a settings file. -/
def backupPath (path stamp : String) : String :=
  path ++ ".backup-" ++ stamp

theorem backupPath_eq (path stamp : String) :
    backupPath path stamp = path ++ (".backup-" ++ stamp) :=
  String.append_assoc

theorem no_slash_suffix (h : '/' ∉ stamp.toList) : '/' ∉ (".backup-" ++ stamp).toList := by
  rw [String.toList_append, List.mem_append]
  exact not_or.mpr ⟨by decide, h⟩

theorem long_suffix (stamp : String) : 2 < (".backup-" ++ stamp).toList.length := by
  rw [String.toList_append, List.length_append]
  exact Nat.lt_add_right _ (by decide)

/-! ## One reset -/

/-- What is there is copied for the present time. -/
theorem backUp_cases (h : (backUp palette path).run world = (.ok (), after)) :
    (world.content? path = none ∧ after = world) ∨
      ∃ disk output, world.disk.copy world.working path (backupPath path world.now) = .ok disk ∧
        after = { world with disk := disk, output := output } := by
  have hexists : (Program.pathExists path).run world =
      (world.disk.contains world.working path, world) := rfl
  have htime : Program.localTime.run world = (world.now, world) := rfl
  have hcopy : (Program.copy path (backupPath path world.now)).run world =
      world.change (world.disk.copy world.working path (backupPath path world.now)) := rfl
  rw [backUp, Program.run_bind, hexists] at h
  cases hthere : world.disk.contains world.working path with
  | false =>
      rw [hthere] at h
      refine Or.inl ⟨Option.eq_none_iff_forall_ne_some.mpr fun bytes hheld => ?_, ?_⟩
      · rw [World.contains_of_content? hheld] at hthere
        cases hthere
      · exact (Prod.mk.inj h).2.symm
  | true =>
      rw [hthere] at h
      simp only [if_true, Program.run_bind, htime] at h
      cases hdisk : world.disk.copy world.working path (backupPath path world.now) with
      | error fault =>
          rw [hdisk, backupPath] at hcopy
          rw [hcopy] at h
          cases h
      | ok disk =>
          rw [hdisk, backupPath] at hcopy
          rw [hcopy] at h
          exact Or.inr ⟨disk, _, rfl, (Prod.mk.inj h).2.symm⟩

theorem content?_of_backUp (h : (backUp palette path).run world = (.ok (), after))
    (hheld : world.content? path = some bytes) :
    after.content? (backupPath path world.now) = some bytes := by
  rcases backUp_cases h with ⟨hnone, -⟩ | ⟨disk, output, hcopy, rfl⟩
  · rw [hheld] at hnone
    cases hnone
  · obtain ⟨location, hleads, hfile⟩ := World.content?_eq_some_iff.mp hheld
    obtain ⟨origin, target, copied, hsource, hcopied, htarget, hbackup, hdiffers⟩ := copy_spec hcopy
    obtain rfl := Except.ok.inj (hleads.symm.trans hsource)
    obtain rfl := Option.some.inj (hfile.symm.trans hcopied)
    exact World.content?_eq_some_iff.mpr
      ⟨target, hdiffers.leadsTo_eq_ok_iff.mpr htarget, hbackup⟩

/-- The backup of another time stays, and so does every one if there is nothing to copy. -/
theorem content?_of_backUp_of_ne (h : (backUp palette path).run world = (.ok (), after))
    (hnow : '/' ∉ world.now.toList) (hstamp : '/' ∉ stamp.toList)
    (hne : stamp ≠ world.now ∨ world.content? path = none)
    (hheld : world.content? (backupPath path stamp) = some bytes) :
    after.content? (backupPath path stamp) = some bytes := by
  rcases backUp_cases h with ⟨-, rfl⟩ | ⟨disk, output, hcopy, rfl⟩
  · exact hheld
  · obtain ⟨origin, target, copied, hsource, hcopied, -, -, hdiffers⟩ := copy_spec hcopy
    have hother : stamp ≠ world.now := by
      refine hne.resolve_right fun hnone => ?_
      rw [World.content?_eq_some_iff.mpr ⟨origin, hsource, hcopied⟩] at hnone
      cases hnone
    -- The copy changes the backup of the present time only, and the other has another name.
    have hsuffix : ".backup-" ++ stamp ≠ ".backup-" ++ world.now := by
      intro heq
      exact hother ((String.append_right_inj _).mp heq)
    rw [← hheld]
    refine World.content?_eq hdiffers rfl fun location hleads hbackup => ?_
    rw [backupPath_eq] at hleads hbackup
    exact ne_of_leadsTo_append (no_slash_suffix hstamp) (no_slash_suffix hnow)
      (long_suffix world.now) hsuffix hleads hbackup rfl

/-- A forced reset makes its backup and then writes to the settings file alone. -/
theorem exists_backUp_of_reset
    (h : (initSettings palette path true).run world = (.ok (), after)) :
    ∃ middle, (backUp palette path).run world = (.ok (), middle) ∧
      middle.ChangesOnly path after := by
  have hexists : (Program.pathExists path).run world =
      (world.disk.contains world.working path, world) := rfl
  rw [initSettings, Program.run_bind, hexists, Bool.not_true, Bool.and_false, writeDefaults] at h
  cases hbackUp : (backUp palette path).run world with
  | mk answer middle =>
      cases answer with
      | error failure =>
          rw [if_neg (by decide), Program.run_onSuccess_of_error hbackUp] at h
          cases h
      | ok u =>
          rw [if_neg (by decide), Program.run_onSuccess_of_ok hbackUp] at h
          refine ⟨middle, rfl, ?_⟩
          have hdoes : ((during ("Failed to write " ++ path) (Settings.save {} path)).onSuccess
              fun () => printed (tick palette ++ " Wrote default configuration to " ++ path ++
                "\n")).Does (Program.IsWriting path) := by
            have htalk : ∀ text, (printed text).Does (Program.IsWriting path) := fun text =>
              Program.does_bind (Program.does_act (Or.inr (Or.inl trivial))) fun _ =>
                Program.does_pure _
            refine Program.does_onSuccess (Program.does_bind (Settings.does_save {} path)
              fun result => ?_) fun _ => htalk _
            cases result <;> exact Program.does_pure _
          have hchanges := hdoes.changesOnly middle
          rwa [h] at hchanges

theorem content?_of_reset (h : (initSettings palette path true).run world = (.ok (), after))
    (hnow : '/' ∉ world.now.toList) (hheld : world.content? path = some bytes) :
    after.content? (backupPath path world.now) = some bytes := by
  obtain ⟨middle, hbackUp, hchanges⟩ := exists_backUp_of_reset h
  have hcopied := content?_of_backUp hbackUp hheld
  rw [backupPath_eq] at hcopied ⊢
  exact hchanges.content?_append (no_slash_suffix hnow) (long_suffix _) hcopied

theorem content?_of_reset_of_ne
    (h : (initSettings palette path true).run world = (.ok (), after))
    (hnow : '/' ∉ world.now.toList) (hstamp : '/' ∉ stamp.toList)
    (hne : stamp ≠ world.now ∨ world.content? path = none)
    (hheld : world.content? (backupPath path stamp) = some bytes) :
    after.content? (backupPath path stamp) = some bytes := by
  obtain ⟨middle, hbackUp, hchanges⟩ := exists_backUp_of_reset h
  have hkept := content?_of_backUp_of_ne hbackUp hnow hstamp hne hheld
  rw [backupPath_eq] at hkept ⊢
  exact hchanges.content?_append (no_slash_suffix hstamp) (long_suffix _) hkept

/-! ## Many resets -/

/-- What happens to a settings file: it is edited at will, or reset by force while the clock shows
some time.  Recorded are the times of the resets that found a file and what they found in it, the
last one first. -/
inductive ResetHistory (palette : Palette) (path : String) (first : World) :
    List (String × Utf8.Bytes) → World → Prop
  | start : ResetHistory palette path first [] first
  | edit {found : List (String × Utf8.Bytes)} {world after : World}
      (before : ResetHistory palette path first found world)
      (hedit : world.ChangesOnly path after) : ResetHistory palette path first found after
  | reset {found : List (String × Utf8.Bytes)} {world after : World}
      (before : ResetHistory palette path first found world) (hnow : '/' ∉ world.now.toList)
      (hrun : (initSettings palette path true).run world = (.ok (), after)) :
      ResetHistory palette path first
        (((world.content? path).map (world.now, ·)).toList ++ found) after

namespace ResetHistory

variable {first last : World} {found : List (String × Utf8.Bytes)}

/-- What was found last at a time was found by the last reset, or before it. -/
theorem lookup_recorded
    (h : (((world.content? path).map (world.now, ·)).toList ++ found).lookup stamp = some bytes) :
    (stamp = world.now ∧ world.content? path = some bytes) ∨
      ((stamp ≠ world.now ∨ world.content? path = none) ∧ found.lookup stamp = some bytes) := by
  rw [List.lookup_append] at h
  cases hheld : world.content? path with
  | none =>
      rw [hheld] at h
      exact Or.inr ⟨Or.inr rfl, h⟩
  | some content =>
      rw [hheld, Option.map_some, Option.toList_some, List.lookup_cons, List.lookup_nil] at h
      by_cases hsame : stamp = world.now
      · rw [hsame, beq_self_eq_true] at h
        exact Or.inl ⟨hsame, h⟩
      · rw [beq_eq_false_iff_ne.mpr hsame] at h
        exact Or.inr ⟨Or.inl hsame, h⟩

theorem no_slash_of_lookup (h : ResetHistory palette path first found last)
    (hfound : found.lookup stamp = some bytes) : '/' ∉ stamp.toList := by
  induction h with
  | start => cases hfound
  | edit _ _ ih => exact ih hfound
  | reset _ hnow _ ih =>
      rcases lookup_recorded hfound with ⟨rfl, -⟩ | ⟨-, hfound⟩
      · exact hnow
      · exact ih hfound

/-- The backup of a time holds what the last reset at that time found. -/
theorem content?_of_lookup (h : ResetHistory palette path first found last)
    (hfound : found.lookup stamp = some bytes) :
    last.content? (backupPath path stamp) = some bytes := by
  -- A reset either has found this just now, or leaves the backup as it was.
  induction h with
  | start => cases hfound
  | edit before hedit ih =>
      have hkept := ih hfound
      rw [backupPath_eq] at hkept ⊢
      exact hedit.content?_append (no_slash_suffix (before.no_slash_of_lookup hfound))
        (long_suffix stamp) hkept
  | reset before hnow hrun ih =>
      rcases lookup_recorded hfound with ⟨rfl, hheld⟩ | ⟨hne, hfound⟩
      · exact content?_of_reset hrun hnow hheld
      · exact content?_of_reset_of_ne hrun hnow (before.no_slash_of_lookup hfound) hne (ih hfound)

/-- The backup of a time holds what the last reset at that time found.  So if all resets at one
time found the same, everything that was found is in a backup. -/
theorem backups_hold_last_found (h : ResetHistory palette path first found last) :
    (∀ stamp bytes, found.lookup stamp = some bytes →
        last.content? (backupPath path stamp) = some bytes) ∧
      ((∀ one ∈ found, ∀ other ∈ found, one.1 = other.1 → one.2 = other.2) →
        ∀ one ∈ found, last.content? (backupPath path one.1) = some one.2) := by
  refine ⟨fun stamp bytes => h.content?_of_lookup, fun hagree one hone => ?_⟩
  obtain ⟨content, hcontent⟩ : ∃ content, found.lookup one.1 = some content := by
    rw [← Option.isSome_iff_exists, List.lookup_isSome_iff]
    exact ⟨one, hone, beq_self_eq_true _⟩
  obtain ⟨newer, older, rfl, -⟩ := List.lookup_eq_some_iff.mp hcontent
  have hsame : one.2 = content := hagree one hone (one.1, content) (by simp) rfl
  rw [hsame]
  exact h.content?_of_lookup hcontent

end ResetHistory

/-! ## Two resets in one second -/

/-- Settings that somebody wrote. -/
def writtenFirst : Utf8.Bytes :=
  Utf8.encode "[pagination]\nmax_comments = 100\n"

/-- Other settings that somebody wrote. -/
def writtenSecond : Utf8.Bytes :=
  Utf8.encode "[pagination]\nmax_comments = 150\n"

/-- A disk with nothing but a settings file. -/
def handWritten : World where
  disk := { root := .file "site.toml" writtenFirst .empty }

/-- The settings file was reset. -/
def resetOnce : World :=
  ((initSettings { coloured := false } "site.toml" true).run handWritten).2

/-- The settings file was reset and written anew, and it is later. -/
def rewritten (stamp : String) : World :=
  { resetOnce with disk := resetOnce.disk.putFile ["site.toml"] writtenSecond, now := stamp }

/-- The settings file was reset, written anew and reset again. -/
def resetTwice (stamp : String) : World :=
  ((initSettings { coloured := false } "site.toml" true).run (rewritten stamp)).2

theorem resetHistory_rewritten (stamp : String) :
    ResetHistory { coloured := false } "site.toml" handWritten
      [("19700101-000000", writtenFirst)] (rewritten stamp) := by
  have hheld : handWritten.content? "site.toml" = some writtenFirst :=
    World.content?_eq_some_iff.mpr ⟨["site.toml"], rfl, rfl⟩
  have hrun : (initSettings { coloured := false } "site.toml" true).run handWritten =
      (.ok (), resetOnce) := Prod.ext rfl rfl
  have hreset := ResetHistory.reset .start (by decide) hrun
  rw [hheld] at hreset
  have hleads : resetOnce.disk.leadsTo resetOnce.working "site.toml" = .ok ["site.toml"] := rfl
  have hfree : ¬ resetOnce.disk.IsDirectoryAt ["site.toml"] := by
    rintro ⟨inside, hinside⟩
    cases hinside
  have hwritten :=
    (differsOnlyAt_putFile (mayHoldFile_of_leadsTo hleads hfree) writtenSecond).2
  refine hreset.edit (.of_differsOnlyAt rfl (hwritten.mono ?_))
  rintro _ rfl
  exact hleads

theorem resetHistory_resetTwice {stamp : String} (hnow : '/' ∉ stamp.toList)
    (hrun : ((initSettings { coloured := false } "site.toml" true).run (rewritten stamp)).1 =
      .ok ()) :
    ResetHistory { coloured := false } "site.toml" handWritten
      [(stamp, writtenSecond), ("19700101-000000", writtenFirst)] (resetTwice stamp) := by
  have hheld : (rewritten stamp).content? "site.toml" = some writtenSecond :=
    World.content?_eq_some_iff.mpr ⟨["site.toml"], rfl, rfl⟩
  have hreset := ResetHistory.reset (resetHistory_rewritten stamp) hnow
    (Prod.ext hrun rfl : _ = (Except.ok (), resetTwice stamp))
  rwa [hheld] at hreset

/-- After resets in two seconds both former contents are in backups. -/
theorem backups_hold_last_found_twoSeconds :
    let last := resetTwice "19700101-000001"
    ResetHistory { coloured := false } "site.toml" handWritten
        [("19700101-000001", writtenSecond), ("19700101-000000", writtenFirst)] last ∧
      last.content? "site.toml.backup-19700101-000000" = some writtenFirst ∧
      last.content? "site.toml.backup-19700101-000001" = some writtenSecond := by
  intro last
  have hhistory : ResetHistory { coloured := false } "site.toml" handWritten
      [("19700101-000001", writtenSecond), ("19700101-000000", writtenFirst)] last :=
    resetHistory_resetTwice (by decide) rfl
  have hagree : ∀ one ∈ [("19700101-000001", writtenSecond), ("19700101-000000", writtenFirst)],
      ∀ other ∈ [("19700101-000001", writtenSecond), ("19700101-000000", writtenFirst)],
        one.1 = other.1 → one.2 = other.2 := by
    simp
  have hkept := (ResetHistory.backups_hold_last_found hhistory).2 hagree
  exact ⟨hhistory, hkept _ (List.mem_cons_of_mem _ List.mem_cons_self), hkept _ List.mem_cons_self⟩

/-- Of two contents that were found in one second the first is lost. -/
theorem lost_in_one_second :
    let last := resetTwice "19700101-000000"
    ResetHistory { coloured := false } "site.toml" handWritten
        [("19700101-000000", writtenSecond), ("19700101-000000", writtenFirst)] last ∧
      ∀ path, last.content? path ≠ some writtenFirst := by
  intro last
  refine ⟨resetHistory_resetTwice (by decide) rfl, fun path hheld => ?_⟩
  obtain ⟨location, -, hfile⟩ := World.content?_eq_some_iff.mp hheld
  have hnowhere : writtenFirst ∉ last.disk.root.contents := by decide +kernel
  exact hnowhere (mem_contents_of_file? hfile)

end Environment

end Discussion
