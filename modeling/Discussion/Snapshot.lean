import Discussion.Source

/-!
# Snapshots

A commentable together with all its comments at one moment.
-/

namespace Discussion

/-- A commentable and its comments. -/
structure Snapshot where
  schemaVersion : String := "1.0"
  commentable : Commentable
  comments : List Comment := []
deriving DecidableEq, Repr

namespace Snapshot

/-- The reference of the commentable. -/
def reference (snapshot : Snapshot) : Reference :=
  snapshot.commentable.reference

/-- The first part of a version, up to a full stop. -/
def majorVersion (version : String) : List Char :=
  version.toList.takeWhile (· != '.')

/-- The first part of the versions that this library reads. -/
def supportedVersion : List Char := ['1']

/-- The first comment that belongs to another commentable. -/
def stray? (snapshot : Snapshot) : Option Comment :=
  snapshot.comments.find? fun c => c.commentable != snapshot.reference

/-- Checks the version and that every comment belongs to the commentable. -/
def validate (snapshot : Snapshot) : Except Fault Unit :=
  if majorVersion snapshot.schemaVersion ≠ supportedVersion then
    .error (.unsupportedSchema snapshot.schemaVersion)
  else
    match snapshot.stray? with
    | some c => .error (.invalidArgument (.strayComment c.id c.commentable snapshot.reference))
    | none => .ok ()

/-- A snapshot as the source of its own commentable. -/
def source {m : Type → Type} [Monad m] (snapshot : Snapshot) : Source m where
  commentable ref :=
    pure (if ref = snapshot.reference then .ok snapshot.commentable
      else .error (.noCommentable ref))
  comments ref :=
    pure (if ref = snapshot.reference then .ok snapshot.comments
      else .error (.noCommentable ref))

end Snapshot

end Discussion
