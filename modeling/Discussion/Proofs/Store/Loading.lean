import Discussion.Proofs.Disk.Change
import Discussion.Proofs.Form.Snapshot
import Discussion.Proofs.Program.Running
import Discussion.Proofs.Store.Names

/-!
# Loading from a store

What a store answers about a commentable depends on what the path of its snapshot leads
to.  A disk that differs elsewhere gives the same answers.
-/

namespace Discussion

open Disk

/-- The snapshot in what was read from a path. -/
def Snapshot.ofRead (path : String) : Except DiskFault Utf8.Bytes → Except Fault Snapshot
  | .error .missing => .error (.fileNotFound path)
  | .error .isDirectory => .error (.serialization DiskFault.isDirectory.message)
  | .error fault => .error (.io fault.message)
  | .ok bytes => Snapshot.ofText (Utf8.decode bytes)

theorem Snapshot.ofText_eq_ok_iff {cs : List (Option Char)} {snapshot : Snapshot} :
    ofText cs = .ok snapshot ↔ read? cs = some snapshot ∧ snapshot.validate = .ok () := by
  rw [ofText]
  cases read? cs with
  | none => simp
  | some found =>
      refine Iff.trans map_eq_ok_iff ?_
      constructor
      · rintro ⟨_, hvalid, rfl⟩
        exact ⟨rfl, hvalid⟩
      · rintro ⟨hfound, hvalid⟩
        obtain rfl := Option.some.inj hfound
        exact ⟨(), hvalid, rfl⟩

theorem Snapshot.ofRead_eq_ok_iff {path : String} {answer : Except DiskFault Utf8.Bytes}
    {snapshot : Snapshot} :
    ofRead path answer = .ok snapshot ↔
      ∃ bytes, answer = .ok bytes ∧ ofText (Utf8.decode bytes) = .ok snapshot := by
  cases answer with
  | ok bytes => simp [ofRead]
  | error fault => cases fault <;> simp [ofRead]

/-- The comments of a valid snapshot are those of its own commentable. -/
theorem Snapshot.commentable_eq_of_valid {snapshot : Snapshot}
    (h : snapshot.validate = .ok ()) :
    ∀ c ∈ snapshot.comments, c.commentable = snapshot.reference := by
  have hstray : snapshot.stray? = none := by
    rw [validate] at h
    split at h
    · cases h
    · split at h
      · cases h
      · next hnone => exact hnone
  intro c hc
  simpa using List.find?_eq_none.mp hstray c hc

/-- A new snapshot without comments is valid. -/
theorem Snapshot.validate_new (owner : Commentable) :
    validate { commentable := owner } = .ok () := by
  have hmajor : majorVersion "1.0" = supportedVersion := by decide +kernel
  exact if_neg (not_not_intro hmajor)

theorem Snapshot.isSpelled_new (owner : Commentable) : IsSpelled { commentable := owner } :=
  fun _ hc => absurd hc List.not_mem_nil

theorem Snapshot.run_load (path : String) (world : World) :
    ((Snapshot.load path).run world).1 =
        Snapshot.ofRead path (world.disk.read world.working path) ∧
      ∃ events, ((Snapshot.load path).run world).2 = { world with events := events } := by
  have hread : (Program.read path).run world =
      (world.disk.read world.working path, world) := rfl
  rw [Snapshot.load, Program.run_bind, hread]
  cases world.disk.read world.working path with
  | error fault => cases fault <;> exact ⟨rfl, world.events, rfl⟩
  | ok bytes =>
      simp only [Snapshot.ofRead]
      cases Snapshot.ofText (Utf8.decode bytes) with
      | error fault => exact ⟨rfl, world.events, rfl⟩
      | ok snapshot => exact ⟨rfl, _, rfl⟩

namespace Disk.DiffersOnlyAt

variable {before after : Disk} {locations : Location → Prop} {working : Location} {path : String}

end Disk.DiffersOnlyAt

namespace Store

theorem run_isStored (store : Store) (ref : Reference) (world : World) :
    (store.isStored ref).run world =
      (world.disk.contains world.working (store.path ref), world) := rfl

theorem run_load (store : Store) (ref : Reference) (world : World) :
    ((store.load ref).run world).1 =
        (if world.disk.contains world.working (store.path ref) then
          Snapshot.ofRead (store.path ref) (world.disk.read world.working (store.path ref))
        else .error (.noCommentable ref)) ∧
      ∃ events, ((store.load ref).run world).2 = { world with events := events } := by
  rw [load, Program.run_bind, run_isStored]
  by_cases hthere : world.disk.contains world.working (store.path ref) = true
  · rw [if_pos hthere, if_pos hthere]
    exact Snapshot.run_load (store.path ref) world
  · rw [if_neg hthere, if_neg hthere]
    exact ⟨rfl, world.events, rfl⟩

theorem value_load_eq_ok_iff {store : Store} {ref : Reference} {world : World}
    {snapshot : Snapshot} :
    ((store.load ref).run world).1 = .ok snapshot ↔
      Snapshot.ofRead (store.path ref) (world.disk.read world.working (store.path ref)) =
        .ok snapshot := by
  rw [(run_load store ref world).1]
  by_cases hthere : world.disk.contains world.working (store.path ref) = true
  · rw [if_pos hthere]
  · rw [if_neg hthere]
    constructor
    · intro h
      cases h
    · intro h
      obtain ⟨bytes, hread, -⟩ := Snapshot.ofRead_eq_ok_iff.mp h
      obtain ⟨location, hleads, hfile⟩ := read_eq_ok_iff.mp hread
      refine absurd ((contains_iff _ _ _).mpr ⟨location, hleads, ?_⟩) hthere
      rw [file?_eq_some_iff.mp hfile]
      exact Option.some_ne_none _

end Store

end Discussion
