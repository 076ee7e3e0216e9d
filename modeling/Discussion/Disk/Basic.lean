import Discussion.Disk.Path
import Discussion.Disk.Place

/-!
# Disks

A file system in memory: a root directory with files and directories below it,
without links and without permissions.  Each operation gives the changed disk or the
reason why it cannot be done, and then the disk is as before.
-/

namespace Discussion

/-- The files and directories below the root. -/
structure Disk where
  root : Folder := .empty
  distinct : root.Distinct := by trivial
deriving DecidableEq, Repr

namespace Disk

/-! ## Looking up -/

/-- The place to which the names of a path lead, seen from a working directory.  All but the
last name must lead to directories. -/
def follow (disk : Disk) (working : Location) (path : String) (names : List String) :
    Except DiskFault Place :=
  match pathFault? path with
  | some fault => .error fault
  | none =>
      ((if isAbsolute path then [] else working) ++ names).foldlM Place.enter (.start disk.root)

/-- What is found by following a path is what its location holds. -/
theorem entry_of_follow {disk : Disk} {working : Location} {path : String} {names : List String}
    {place : Place} (h : disk.follow working path names = .ok place) :
    place.entry = disk.root.at? place.location := by
  rw [follow] at h
  split at h
  · cases h
  · exact (Place.LiesIn.enterAll .start h).entry_eq

/-- The place to which a path leads, seen from a working directory. -/
def locate (disk : Disk) (working : Location) (path : String) : Except DiskFault Place :=
  disk.follow working path (pathNames path)

/-- What a path leads to. -/
def find (disk : Disk) (working : Location) (path : String) :
    Except DiskFault (Location × Entry) := do
  let place ← disk.locate working path
  match place.entry with
  | some entry => .ok (place.location, entry)
  | none => .error .missing

/-- Whether a path leads to something. -/
def contains (disk : Disk) (working : Location) (path : String) : Bool :=
  match disk.find working path with
  | .ok _ => true
  | .error _ => false

/-- Whether a path leads to a directory. -/
def isDirectory (disk : Disk) (working : Location) (path : String) : Bool :=
  match disk.find working path with
  | .ok (_, .directory _) => true
  | _ => false

/-- The content of a file. -/
def read (disk : Disk) (working : Location) (path : String) : Except DiskFault Utf8.Bytes := do
  match ← disk.find working path with
  | (_, .file bytes) => .ok bytes
  | (_, .directory _) => .error .isDirectory

/-- The names in a directory, in order. -/
def names (disk : Disk) (working : Location) (path : String) : Except DiskFault (List String) := do
  match ← disk.find working path with
  | (_, .file _) => .error .notDirectory
  | (_, .directory inside) => .ok (inside.names.mergeSort fun a b => decide (a ≤ b))

/-! ## Changing -/

/-- The disk with a file at a location, whatever was there. -/
def putFile (disk : Disk) (location : Location) (bytes : Utf8.Bytes) : Disk where
  root := disk.root.assignAt (some (.file bytes)) location
  distinct := Folder.distinct_assignAt location disk.distinct fun _ h => by cases h; trivial

/-- The disk with an empty directory at a location, whatever was there. -/
def putDirectory (disk : Disk) (location : Location) : Disk where
  root := disk.root.assignAt (some (.directory .empty)) location
  distinct := Folder.distinct_assignAt location disk.distinct fun _ h => by cases h; trivial

/-- The disk without what is at a location and below it. -/
def erase (disk : Disk) (location : Location) : Disk where
  root := disk.root.assignAt none location
  distinct := Folder.distinct_assignAt location disk.distinct fun _ h => by cases h

/-- The location at which a file may be written. -/
def locateFile (disk : Disk) (working : Location) (path : String) : Except DiskFault Location := do
  let place ← disk.locate working path
  match place.entry with
  | some (.directory _) => .error .isDirectory
  | _ => .ok place.location

/-- Makes a file empty, creating it if it is missing. -/
def create (disk : Disk) (working : Location) (path : String) : Except DiskFault Disk := do
  let location ← disk.locateFile working path
  .ok (disk.putFile location [])

/-- Adds bytes to the end of a file. -/
def append (disk : Disk) (working : Location) (path : String) (bytes : Utf8.Bytes) :
    Except DiskFault Disk := do
  match ← disk.find working path with
  | (location, .file former) => .ok (disk.putFile location (former ++ bytes))
  | (_, .directory _) => .error .isDirectory

/-- Moves a file, replacing a file that is there. -/
def rename (disk : Disk) (working : Location) (source target : String) : Except DiskFault Disk := do
  match ← disk.find working source with
  | (_, .directory _) => .error .isDirectory
  | (origin, .file bytes) => do
      let location ← disk.locateFile working target
      .ok ((disk.erase origin).putFile location bytes)

/-- Removes a file. -/
def remove (disk : Disk) (working : Location) (path : String) : Except DiskFault Disk := do
  match ← disk.find working path with
  | (_, .directory _) => .error .isDirectory
  | (location, .file _) => .ok (disk.erase location)

/-- Copies a file, replacing a file that is there. -/
def copy (disk : Disk) (working : Location) (source target : String) : Except DiskFault Disk := do
  match ← disk.find working source with
  | (_, .directory _) => .error .notRegular
  | (_, .file bytes) => do
      let location ← disk.locateFile working target
      .ok (disk.putFile location bytes)

/-- Makes a directory.  A slash at the end of its path does not count. -/
def makeDirectory (disk : Disk) (working : Location) (path : String) : Except DiskFault Disk := do
  let place ← disk.follow working path (innerNames path)
  match place.entry with
  | some _ => .error .alreadyExists
  | none => .ok (disk.putDirectory place.location)

end Disk

end Discussion
