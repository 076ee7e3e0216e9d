import Discussion.Form.Snapshot
import Discussion.Program.Directories

/-!
# Stores

A directory of snapshots, one file for each commentable.  A snapshot is written
to a file of another name first, which then takes the place of the former one, so
that a save that fails leaves the former snapshot as it was.
-/

namespace Discussion

/-- Reads the valid snapshot of a file. -/
def Snapshot.load (path : String) : Program (Except Fault Snapshot) := do
  match ← Program.read path with
  | .error .missing => pure (.error (.fileNotFound path))
  | .error .isDirectory => pure (.error (.serialization DiskFault.isDirectory.message))
  | .error fault => pure (.error (.io fault.message))
  | .ok bytes =>
      match Snapshot.ofText (Utf8.decode bytes) with
      | .error fault => pure (.error fault)
      | .ok snapshot => do
          Program.report (.readSnapshot snapshot.reference snapshot.comments.length path)
          pure (.ok snapshot)

/-- A directory that holds snapshots in a directory of its own. -/
structure Store where
  base : String
deriving DecidableEq, Repr

namespace Store

/-- The directory of the snapshots. -/
def directory (store : Store) : String :=
  joinPath store.base "snapshots"

/-- The file name of the snapshot of a commentable. -/
def fileName (ref : Reference) : String :=
  ref.text ++ ".json"

/-- The file name under which a snapshot is written first. -/
def tempName (ref : Reference) : String :=
  "." ++ ref.text ++ ".json.tmp"

/-- The path of the snapshot of a commentable. -/
def path (store : Store) (ref : Reference) : String :=
  joinPath store.directory (fileName ref)

/-- The path under which a snapshot is written first. -/
def tempPath (store : Store) (ref : Reference) : String :=
  joinPath store.directory (tempName ref)

/-- Opens the store of a directory, making what is missing. -/
def openAt (base : String) : Program (Except Fault Store) := do
  let store : Store := { base := base }
  if ← Program.pathExists store.directory then pure (.ok store)
  else
    ((Program.makeDirectories store.directory).orFault
      "Failed to create snapshots directory: ").onSuccess fun () => do
        Program.report (.createdDirectory store.directory)
        pure (.ok store)

/-- Writes a snapshot to a file. -/
def writeTo (path : String) (snapshot : Snapshot) : Program (Except Fault Unit) :=
  ((Program.create path).orFault "Failed to create temp file: ").onSuccess fun () =>
    (Program.append path (Utf8.encode snapshot.text)).orFault ""

/-- Writes a snapshot under its first name and moves it to its own. -/
def replace (store : Store) (snapshot : Snapshot) : Program (Except Fault Unit) :=
  let ref := snapshot.reference
  (writeTo (store.tempPath ref) snapshot).onSuccess fun () =>
    (Program.rename (store.tempPath ref) (store.path ref)).orFault
      "Failed to rename temp file: "

/-- Stores a valid snapshot in the place of the former one of its commentable. -/
def save (store : Store) (snapshot : Snapshot) : Program (Except Fault Unit) := do
  match snapshot.validate with
  | .error fault => pure (.error fault)
  | .ok () => do
      let ref := snapshot.reference
      match ← store.replace snapshot with
      | .error fault => do
          let _ ← Program.remove (store.tempPath ref)
          pure (.error fault)
      | .ok () => do
          Program.report (.savedSnapshot ref (store.path ref))
          pure (.ok ())

/-- Whether a snapshot of a commentable is stored. -/
def isStored (store : Store) (ref : Reference) : Program Bool :=
  Program.pathExists (store.path ref)

/-- The stored snapshot of a commentable. -/
def load (store : Store) (ref : Reference) : Program (Except Fault Snapshot) := do
  if ← store.isStored ref then Snapshot.load (store.path ref)
  else pure (.error (.noCommentable ref))

/-- Deletes the stored snapshot of a commentable. -/
def delete (store : Store) (ref : Reference) : Program (Except Fault Unit) := do
  if ← store.isStored ref then
    ((Program.remove (store.path ref)).orFault "Failed to delete snapshot file: ").onSuccess
      fun () => do
        Program.report (.deletedSnapshot ref (store.path ref))
        pure (.ok ())
  else pure (.error (.noCommentable ref))

/-- Whether a file name may be that of a snapshot. -/
def isSnapshotName (name : String) : Bool :=
  name.toList.head? != some '.' && ".json".toList.isSuffixOf name.toList

/-- Reads the snapshots of some files; those that hold none are reported and left out. -/
def survey (store : Store) : List String → Program (List (Reference × Nat))
  | [] => pure []
  | name :: names => do
      if isSnapshotName name then do
        let path := joinPath store.directory name
        match ← Snapshot.load path with
        | .ok snapshot => do
            let others ← store.survey names
            pure ((snapshot.reference, snapshot.comments.length) :: others)
        | .error fault => do
            Program.report (.unreadableSnapshot path fault)
            store.survey names
      else store.survey names

/-- Whether the first commentable is not listed after the second: by the names of the
kinds, then by number. -/
def listsBefore (a b : Reference × Nat) : Bool :=
  ((Ord.compare a.1.kind.name b.1.kind.name).then
    (Ord.compare a.1.id.toNat b.1.id.toNat)) != .gt

/-- The stored commentables with the numbers of their comments. -/
def list (store : Store) : Program (Except Fault (List (Reference × Nat))) :=
  ((Program.listDirectory store.directory).orFault
    "Failed to read snapshots directory: ").onSuccess fun names => do
      let found ← store.survey names
      pure (.ok (found.mergeSort listsBefore))

/-- The store as a source of comments.  Every fetch loads the snapshot anew. -/
def source (store : Store) : Source Program where
  commentable ref := do
    let loaded ← store.load ref
    pure (loaded.map (·.commentable))
  comments ref := do
    let loaded ← store.load ref
    pure (loaded.map (·.comments))

end Store

end Discussion
