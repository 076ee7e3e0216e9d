import Discussion.Proofs.Store.Listing
import Discussion.Proofs.Store.Opening

/-!
# A store is a map

What a store answers after any calls depends only on which saves and deletions have
succeeded.  It is what a map from commentables to snapshots would answer, but for leap seconds
that do not end their minute: these are loaded as a part of the next second.
-/

namespace Discussion

open Disk

namespace Store

/-- What may be asked of a store. -/
inductive Call
  | save (snapshot : Snapshot)
  | delete (ref : Reference)
  | load (ref : Reference)
  | isStored (ref : Reference)
  | list
deriving DecidableEq, Repr

/-- What a store replies. -/
inductive Reply
  | done (result : Except Fault Unit)
  | loaded (result : Except Fault Snapshot)
  | stored (answer : Bool)
  | listed (result : Except Fault (List (Reference × Nat)))

namespace Call

def perform (store : Store) : Call → Program Reply
  | .save snapshot => do
      let result ← store.save snapshot
      pure (.done result)
  | .delete ref => do
      let result ← store.delete ref
      pure (.done result)
  | .load ref => do
      let result ← store.load ref
      pure (.loaded result)
  | .isStored ref => do
      let answer ← store.isStored ref
      pure (.stored answer)
  | .list => do
      let result ← store.list
      pure (.listed result)

/-- The only commentable for which a call may change what is kept. -/
def target? : Call → Option Reference
  | .save snapshot => some snapshot.reference
  | .delete ref => some ref
  | _ => none

/-- Whether the comments of what is to be saved were made on days that are kept. -/
def InRange : Call → Prop
  | .save snapshot => snapshot.InRange
  | _ => True

/-- What is kept after a call. -/
def effect (kept : Reference → Option Snapshot) : Call → Reply → Reference → Option Snapshot
  | .save snapshot, .done (.ok _) => Function.update kept snapshot.reference (some snapshot)
  | .delete ref, .done (.ok _) => Function.update kept ref none
  | _, _ => kept

/-- What is kept for other commentables is left alone. -/
theorem effect_of_ne {call : Call} {ref : Reference} (h : call.target? ≠ some ref)
    (kept : Reference → Option Snapshot) (reply : Reply) :
    call.effect kept reply ref = kept ref := by
  fun_cases effect kept call reply with
  | case1 snapshot => exact Function.update_of_ne (fun hsame => h (congrArg some hsame.symm)) _ _
  | case2 other => exact Function.update_of_ne (fun hsame => h (congrArg some hsame.symm)) _ _
  | case3 => rfl

/-- What is kept after a call was kept before, unless the call saves it. -/
theorem eq_some_of_effect {call : Call} {kept : Reference → Option Snapshot} {reply : Reply}
    {ref : Reference} {snapshot : Snapshot} (h : call.effect kept reply ref = some snapshot) :
    call = .save snapshot ∨ kept ref = some snapshot := by
  revert h
  fun_cases effect kept call reply with
  | case1 saved =>
      rw [Function.update_apply]
      split
      · intro h
        exact Or.inl (congrArg save (Option.some.inj h))
      · exact Or.inr
  | case2 other =>
      rw [Function.update_apply]
      split
      · intro h
        cases h
      · exact Or.inr
  | case3 => exact Or.inr

end Call

/-- Makes calls in order. -/
def performAll (store : Store) : List Call → Program (List Reply)
  | [] => pure []
  | call :: calls => do
      let reply ← call.perform store
      let replies ← store.performAll calls
      pure (reply :: replies)

theorem run_performAll_cons {store : Store} {call : Call} {calls : List Call} {reply : Reply}
    {replies : List Reply} {world next last : World}
    (hcall : (call.perform store).run world = (reply, next))
    (hcalls : (store.performAll calls).run next = (replies, last)) :
    (store.performAll (call :: calls)).run world = (reply :: replies, last) := by
  rw [performAll, Program.run_bind, hcall, Program.run_bind, hcalls]
  rfl

theorem run_perform_save {store : Store} {snapshot : Snapshot} {result : Except Fault Unit}
    {world next : World} (h : (store.save snapshot).run world = (result, next)) :
    ((Call.save snapshot).perform store).run world = (.done result, next) := by
  rw [Call.perform, Program.run_bind, h]
  rfl

theorem run_perform_delete {store : Store} {ref : Reference} {result : Except Fault Unit}
    {world next : World} (h : (store.delete ref).run world = (result, next)) :
    ((Call.delete ref).perform store).run world = (.done result, next) := by
  rw [Call.perform, Program.run_bind, h]
  rfl

/-- The snapshot of the last successful save of a commentable, unless a deletion succeeded
since. -/
def kept (history : List (Call × Reply)) : Reference → Option Snapshot :=
  history.foldl (fun kept step => step.1.effect kept step.2) fun _ => none

theorem allInRange_kept {history : List (Call × Reply)}
    (h : ∀ step ∈ history, step.1.InRange) : AllInRange (kept history) := by
  refine List.foldlRecOn (motive := AllInRange) history _ ?_ ?_
  · intro ref snapshot hnone
    cases hnone
  · intro kept hkept step hstep ref snapshot hsome
    rcases Call.eq_some_of_effect hsome with hsave | hsome
    · have hcall := h step hstep
      rwa [hsave] at hcall
    · exact hkept ref snapshot hsome

/-- What a store does next if it acts as a map from commentables to snapshots, each of which is
loaded as its written form tells it. -/
structure ActsAs (store : Store) (kept : Reference → Option Snapshot) (world : World) : Prop where
  isStored : ∀ ref, (store.isStored ref).run world = ((kept ref).isSome, world)
  load : ∀ ref, ((store.load ref).run world).1 =
    match kept ref with
    | some snapshot => .ok snapshot.asWritten
    | none => .error (.noCommentable ref)
  /-- That is what was saved, unless a leap second does not end its minute. -/
  load_eq_ok_iff : ∀ ref snapshot, kept ref = some snapshot →
    (((store.load ref).run world).1 = .ok snapshot ↔ snapshot.IsSpelled)
  delete_of_none : ∀ ref, kept ref = none →
    (store.delete ref).run world = (.error (.noCommentable ref), world)
  delete_of_some : ∀ ref, kept ref ≠ none → ((store.delete ref).run world).1 = .ok ()
  save_of_invalid : ∀ snapshot fault, snapshot.validate = .error fault →
    (store.save snapshot).run world = (.error fault, world)
  save_of_valid : ∀ snapshot, snapshot.validate = .ok () → (store.save snapshot).Unrefused world →
    ((store.save snapshot).run world).1 = .ok ()
  /-- Each commentable is listed once, in order. -/
  list : ∃ rows, (store.list.run world).1 = .ok rows ∧
    (rows.Pairwise fun a b => a.1.Precedes b.1) ∧
    ∀ ref n, (ref, n) ∈ rows ↔
      ∃ snapshot, kept ref = some snapshot ∧ n = snapshot.comments.length
  /-- No call affects another commentable. -/
  others : ∀ (call : Call) ref, call.target? ≠ some ref →
    ∀ reply next, (call.perform store).run world = (reply, next) →
      ((store.isStored ref).run next).1 = ((store.isStored ref).run world).1 ∧
      ((store.load ref).run next).1 = ((store.load ref).run world).1

namespace Keeps

variable {store : Store} {kept : Reference → Option Snapshot} {world next : World}
  {place : Location}

theorem save (h : store.Keeps kept world place) {snapshot : Snapshot}
    {result : Except Fault Unit} (hrun : (store.save snapshot).run world = (result, next)) :
    store.Keeps ((Call.save snapshot).effect kept (.done result)) next place := by
  cases result with
  | ok u => exact h.save_of_ok hrun
  | error fault => exact h.save_of_error hrun

theorem delete (h : store.Keeps kept world place) {ref : Reference} {result : Except Fault Unit}
    (hrun : (store.delete ref).run world = (result, next)) :
    store.Keeps ((Call.delete ref).effect kept (.done result)) next place := by
  cases hkept : kept ref with
  | none =>
      rw [h.delete_of_none hkept] at hrun
      cases hrun
      exact h
  | some snapshot =>
      obtain ⟨last, hdeleted, hkeeps⟩ := h.delete_of_some hkept
      rw [hdeleted] at hrun
      cases hrun
      exact hkeeps

/-- After a call a store keeps what the call leaves. -/
theorem perform (h : store.Keeps kept world place) {call : Call} {reply : Reply}
    (hrun : (call.perform store).run world = (reply, next)) :
    store.Keeps (call.effect kept reply) next place := by
  cases call with
  | save snapshot =>
      rw [Call.perform, Program.run_bind] at hrun
      cases hrun
      exact h.save rfl
  | delete ref =>
      rw [Call.perform, Program.run_bind] at hrun
      cases hrun
      exact h.delete rfl
  | load ref =>
      rw [Call.perform, Program.run_bind] at hrun
      cases hrun
      obtain ⟨-, events, hevents⟩ := Store.run_load store ref world
      rw [hevents]
      exact h.of_events events
  | isStored ref =>
      rw [Call.perform, Program.run_bind] at hrun
      cases hrun
      exact h
  | list =>
      rw [Call.perform, Program.run_bind] at hrun
      cases hrun
      obtain ⟨refs, hnames, -⟩ := h.names_directory
      obtain ⟨events, hlist⟩ := run_list_of_ok hnames
      rw [hlist]
      exact h.of_events events

/-- After any calls a store keeps what they leave. -/
theorem performAll (h : store.Keeps kept world place) {calls : List Call} {replies : List Reply}
    (hrun : (store.performAll calls).run world = (replies, next)) :
    replies.length = calls.length ∧
      store.Keeps ((calls.zip replies).foldl (fun kept step => step.1.effect kept step.2) kept)
        next place := by
  induction calls generalizing kept world replies with
  | nil =>
      cases hrun
      exact ⟨rfl, h⟩
  | cons call calls ih =>
      rw [Store.performAll, Program.run_bind, Program.run_bind] at hrun
      cases hrun
      have hstep : store.Keeps (call.effect kept ((call.perform store).run world).1)
          ((call.perform store).run world).2 place := h.perform (Prod.eta _).symm
      obtain ⟨hlength, hrest⟩ := ih hstep (Prod.eta _).symm
      exact ⟨congrArg (· + 1) hlength, hrest⟩

theorem actsAs (h : store.Keeps kept world place) (hrange : AllInRange kept) :
    store.ActsAs kept world := by
  have hload : ∀ {ref snapshot}, kept ref = some snapshot →
      ((store.load ref).run world).1 = .ok snapshot.asWritten := by
    intro ref snapshot hkept
    rw [h.value_load, hkept]
    exact Snapshot.reread_eq (h.canKeep ref snapshot hkept).valid (hrange ref snapshot hkept)
  exact
    { isStored := h.run_isStored
      load := fun ref => by
        cases hkept : kept ref with
        | some snapshot => exact hload hkept
        | none => rw [h.value_load, hkept]
      load_eq_ok_iff := fun ref snapshot hkept => by
        rw [hload hkept, Except.ok.injEq]
        exact Snapshot.asWritten_eq_self_iff (hrange ref snapshot hkept)
      delete_of_none := fun _ => h.delete_of_none
      delete_of_some := fun ref hkept => by
        obtain ⟨snapshot, hsome⟩ := Option.ne_none_iff_exists'.mp hkept
        obtain ⟨next, hrun, -⟩ := h.delete_of_some hsome
        rw [hrun]
      save_of_invalid := fun snapshot fault hinvalid => run_save_of_invalid store hinvalid world
      save_of_valid := fun snapshot hvalid hwell => by
        obtain ⟨u, hu⟩ := (failsIfRefused_save store hvalid world).mp hwell
        exact hu
      list := by
        obtain ⟨rows, events, hrun, hrows⟩ := h.list hrange
        exact ⟨rows, by rw [hrun], hrows⟩
      others := fun call ref htarget reply next hrun => by
        have hnext := h.perform hrun
        have hsame := Call.effect_of_ne htarget kept reply
        rw [hnext.run_isStored, h.run_isStored, hnext.value_load, h.value_load, hsame]
        exact ⟨rfl, rfl⟩ }

end Keeps

/-- At the root of an empty disk a store is opened that keeps nothing. -/
theorem exists_keeps_of_emptyDisk :
    ∃ opened place, (openAt "/").run {} = (.ok { base := "/" }, opened) ∧
      Disk.names {} [] "/" = .ok [] ∧ Keeps { base := "/" } (fun _ => none) opened place := by
  have hdirectory : joinPath "/" "snapshots" = "/snapshots" := by decide +kernel
  have hleads : Disk.leadsTo {} [] (joinPath "/" "snapshots") = .ok ["snapshots"] := by
    rw [hdirectory]
    rfl
  have hempty : Disk.names {} [] "/" = .ok [] := by
    have hfind : Disk.find {} [] "/" = .ok ([], .directory .empty) := rfl
    rw [Disk.names, hfind]
    exact congrArg Except.ok List.mergeSort_nil
  have hopen := @run_openAt_of_missing "/" {} _ hleads rfl
  obtain ⟨place, hkeeps⟩ := exists_keeps_of_names (names_directory_of_openAt hempty hopen)
  exact ⟨_, place, hopen, hempty, hkeeps⟩

/-- A comment that was made in a leap second inside a minute is loaded as one that was made in the
next second. -/
theorem not_load_saved_of_leap_second :
    let store : Store := { base := "/" }
    let ref : Reference := { kind := .article, id := 7 }
    let comment : Comment :=
      { id := ⟨1⟩, commentable := ref, user := ⟨2⟩, createdAt := ⟨30, 1500000000⟩ }
    let snapshot : Snapshot :=
      { commentable := { reference := ref, user := ⟨1⟩ }, comments := [comment] }
    ∃ opened saved, (openAt "/").run {} = (.ok store, opened) ∧ Disk.names {} [] "/" = .ok [] ∧
      snapshot.InRange ∧ (store.save snapshot).run opened = (.ok (), saved) ∧
      ((store.load ref).run saved).1 =
        .ok { snapshot with comments := [{ comment with createdAt := ⟨31, 500000000⟩ }] } ∧
      ((store.load ref).run saved).1 ≠ .ok snapshot := by
  intro store ref comment snapshot
  obtain ⟨opened, place, hopen, hempty, hkeeps⟩ := exists_keeps_of_emptyDisk
  have hvalid : snapshot.validate = .ok () := by decide +kernel
  have hrange : snapshot.InRange := by
    intro c hc
    rw [List.mem_singleton.mp hc]
    exact ⟨by decide, by decide⟩
  obtain ⟨saved, hsave, hsaved⟩ := hkeeps.exists_save hvalid (by decide +kernel) (by decide +kernel)
  have hload : ((store.load snapshot.reference).run saved).1 = .ok snapshot.asWritten := by
    rw [hsaved.value_load, Function.update_self]
    exact Snapshot.reread_eq hvalid hrange
  have hwritten : snapshot.asWritten =
      { snapshot with comments := [{ comment with createdAt := ⟨31, 500000000⟩ }] } := by
    decide +kernel
  rw [hwritten] at hload
  refine ⟨opened, saved, hopen, hempty, hrange, hsave, hload, fun hsame => ?_⟩
  have hothers := Except.ok.inj (hload.symm.trans hsame)
  exact absurd hothers (by decide +kernel)

/-- A store that is opened on a fresh directory acts as a map from commentables to snapshots. -/
theorem actsAs_of_run {base : String} {store : Store} {world opened last : World}
    {calls : List Call} {replies : List Reply}
    (hopen : (openAt base).run world = (.ok store, opened))
    (hfresh : world.disk.names world.working base = .ok [] ∨
      opened.disk.names opened.working store.directory = .ok [])
    (hrange : ∀ call ∈ calls, call.InRange)
    (hrun : (store.performAll calls).run opened = (replies, last)) :
    replies.length = calls.length ∧ store.ActsAs (kept (calls.zip replies)) last := by
  have hempty : opened.disk.names opened.working store.directory = .ok [] :=
    hfresh.elim (fun hbase => names_directory_of_openAt hbase hopen) fun hdirectory => hdirectory
  obtain ⟨place, hkeeps⟩ := exists_keeps_of_names hempty
  obtain ⟨hlength, hlast⟩ := hkeeps.performAll hrun
  refine ⟨hlength, hlast.actsAs (allInRange_kept fun step hstep => ?_)⟩
  exact hrange step.1 (List.of_mem_zip hstep).1

/-- Two commentables are saved, one of them with comments in leap seconds, and the other one is
deleted again. -/
theorem actsAs_after_saving :
    let store : Store := { base := "/" }
    let article : Reference := { kind := .article, id := 7 }
    let podcast : Reference := { kind := .podcastEpisode, id := 7 }
    let first : Snapshot :=
      { commentable := { reference := article, user := ⟨1⟩ }
        comments :=
          [{ id := ⟨1⟩, commentable := article, user := ⟨2⟩, score := -5
             createdAt := ⟨1483228799, 1500000000⟩ },
           { id := ⟨2⟩, parent := some ⟨1⟩, commentable := article, user := ⟨3⟩, score := 8
             createdAt := ⟨1483228830, 1500000000⟩ }] }
    let second : Snapshot :=
      { commentable := { reference := podcast, user := ⟨4⟩ }
        comments := [{ id := ⟨3⟩, commentable := podcast, user := ⟨2⟩, createdAt := .epoch }] }
    let calls : List Call := [.save first, .save second, .delete podcast]
    let replies : List Reply := [.done (.ok ()), .done (.ok ()), .done (.ok ())]
    ∃ opened last, (openAt "/").run {} = (.ok store, opened) ∧ Disk.names {} [] "/" = .ok [] ∧
      (∀ call ∈ calls, call.InRange) ∧ (store.performAll calls).run opened = (replies, last) ∧
      kept (calls.zip replies) article = some first ∧ kept (calls.zip replies) podcast = none ∧
      store.ActsAs (kept (calls.zip replies)) last := by
  intro store article podcast first second calls replies
  obtain ⟨opened, place, hopen, hempty, hkeeps⟩ := exists_keeps_of_emptyDisk
  have hfirst : first.InRange := by
    simp only [Snapshot.InRange, first, List.forall_mem_cons, List.not_mem_nil, false_implies,
      implies_true, and_true]
    exact ⟨⟨by decide, by decide⟩, ⟨by decide, by decide⟩⟩
  have hsecond : second.InRange := by
    intro c hc
    rw [List.mem_singleton.mp hc]
    exact ⟨by decide, by decide⟩
  have hrange : ∀ call ∈ calls, call.InRange := by
    simp only [calls, List.forall_mem_cons, List.not_mem_nil, false_implies, implies_true, and_true]
    exact ⟨hfirst, hsecond, trivial⟩
  obtain ⟨one, hone, hkeepsOne⟩ :=
    hkeeps.exists_save (by decide +kernel : first.validate = .ok ()) (by decide +kernel)
      (by decide +kernel)
  obtain ⟨two, htwo, hkeepsTwo⟩ :=
    hkeepsOne.exists_save (by decide +kernel : second.validate = .ok ()) (by decide +kernel)
      (by decide +kernel)
  obtain ⟨last, hlast, -⟩ := hkeepsTwo.delete_of_some (Function.update_self second.reference _ _)
  have hrun : (store.performAll calls).run opened = (replies, last) :=
    run_performAll_cons (run_perform_save hone) (run_performAll_cons (run_perform_save htwo)
      (run_performAll_cons (run_perform_delete hlast) rfl))
  exact ⟨opened, last, hopen, hempty, hrange, hrun, by decide, by decide,
    (actsAs_of_run hopen (Or.inl hempty) hrange hrun).2⟩

end Store

end Discussion
