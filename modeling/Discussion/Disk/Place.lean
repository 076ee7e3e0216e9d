import Discussion.Disk.Fault
import Discussion.Disk.Folder

/-!
# Places

Where a walk from the root has come to.  A place remembers the directories around
it, so that a step inwards looks up one name and a step outwards none.  By
`Place.LiesIn.entry_eq` what is found on the way is what the location holds.
-/

namespace Discussion

/-- A place on a walk from the root. -/
structure Place where
  /-- The names gone through, innermost first, each with what the directory around it holds. -/
  way : List (String × Folder)
  /-- What is there, if anything. -/
  entry : Option Entry

namespace Place

/-- The beginning of a walk. -/
def start (root : Folder) : Place :=
  { way := [], entry := some (.directory root) }

/-- The names on the way from the root. -/
def location (place : Place) : Location :=
  (place.way.map (·.1)).reverse

/-- One step outwards.  The root is around itself. -/
def leave (place : Place) : Place :=
  match place.way with
  | [] => place
  | (_, around) :: way => { way := way, entry := some (.directory around) }

/-- One step to a name in a directory. -/
def enter (place : Place) (name : String) : Except DiskFault Place :=
  match place.entry with
  | none => .error .missing
  | some (.file _) => .error .notDirectory
  | some (.directory inside) =>
      if name = "." then .ok place
      else if name = ".." then .ok place.leave
      else if maxNameBytes < name.utf8ByteSize then .error .nameTooLong
      else .ok { way := (name, inside) :: place.way, entry := inside.get? name }

/-- A place to which steps lead from the root. -/
inductive LiesIn (root : Folder) : Place → Prop
  | start : LiesIn root (.start root)
  | inner {way : List (String × Folder)} {inside : Folder} (name : String)
      (h : LiesIn root { way := way, entry := some (.directory inside) }) :
      LiesIn root { way := (name, inside) :: way, entry := inside.get? name }

theorem LiesIn.leave {root : Folder} {place : Place} (h : LiesIn root place) :
    LiesIn root place.leave := by
  cases h with
  | start => exact .start
  | inner name h => exact h

theorem LiesIn.enter {root : Folder} {place next : Place} {name : String}
    (h : LiesIn root place) (hstep : place.enter name = .ok next) : LiesIn root next := by
  obtain ⟨way, entry⟩ := place
  match entry with
  | none => cases hstep
  | some (.file bytes) => cases hstep
  | some (.directory inside) =>
      simp only [Place.enter] at hstep
      split at hstep
      · cases hstep
        exact h
      · split at hstep
        · cases hstep
          exact h.leave
        · split at hstep
          · cases hstep
          · cases hstep
            exact .inner name h

theorem LiesIn.enterAll {root : Folder} {place last : Place} {names : List String}
    (h : LiesIn root place) (hsteps : names.foldlM Place.enter place = .ok last) :
    LiesIn root last := by
  induction names generalizing place with
  | nil =>
      cases hsteps
      exact h
  | cons name names ih =>
      rw [List.foldlM_cons] at hsteps
      cases hstep : place.enter name with
      | error fault =>
          rw [hstep] at hsteps
          cases hsteps
      | ok next =>
          rw [hstep] at hsteps
          exact ih (h.enter hstep) hsteps

/-- What is found on the way to a place is what its location holds. -/
theorem LiesIn.entry_eq {root : Folder} {place : Place} (h : LiesIn root place) :
    place.entry = root.at? place.location := by
  induction h with
  | start => rfl
  | @inner way inside name _ ih =>
      have hlocation : location { way := (name, inside) :: way, entry := inside.get? name } =
          location { way := way, entry := some (.directory inside) } ++ [name] := by
        simp [location]
      rw [hlocation, Folder.at?_concat, ← ih]
      rfl

end Place

end Discussion
