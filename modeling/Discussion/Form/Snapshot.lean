import Discussion.Form.Comment
import Discussion.Json.Reader
import Discussion.Json.Writer
import Discussion.Snapshot

/-!
# The data form of snapshots

A snapshot is a record of its version, its commentable and its comments.  It is
stored as an indented JSON text.
-/

namespace Discussion

namespace Snapshot

/-- The fields of a snapshot. -/
def fieldNames : List String :=
  ["schema_version", "commentable", "comments"]

/-- A snapshot as a JSON value. -/
def toJson (snapshot : Snapshot) : Json :=
  .ofMembers [
    ("schema_version", .ofString snapshot.schemaVersion),
    ("commentable", snapshot.commentable.toJson),
    ("comments", .array (snapshot.comments.map Comment.toJson))]

/-- A snapshot from a JSON value. -/
def ofJson? : Decoder Snapshot := fun room value => do
  let fields ← Json.record fieldNames room value
  let schemaVersion ← fields.withDefault "schema_version" Json.text "1.0"
  let commentable ← fields.required "commentable" Commentable.ofJson?
  let comments ← fields.withDefault "comments" (Json.list Comment.ofJson?) []
  some { schemaVersion := schemaVersion, commentable := commentable, comments := comments }

/-- The text of a snapshot as it is stored. -/
def text (snapshot : Snapshot) : String :=
  snapshot.toJson.pretty

/-- The snapshot whose text is given; `none` stands for a byte of no character. -/
def read? (cs : List (Option Char)) : Option Snapshot :=
  (Json.read? cs).bind (Json.decode? ofJson?)

/-- The valid snapshot whose text is given. -/
def ofText (cs : List (Option Char)) : Except Fault Snapshot :=
  match read? cs with
  | none => .error (.serialization "not a snapshot")
  | some snapshot => snapshot.validate.map fun _ => snapshot

end Snapshot

end Discussion
