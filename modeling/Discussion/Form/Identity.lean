import Discussion.Commentable.Basic
import Discussion.Instant.Text
import Discussion.Json.Decoder

/-!
# The data form of identities and instants

Numbers are JSON integers, kinds and instants are strings, and a reference is a
record of its kind and number.
-/

namespace Discussion

/-- An unsigned word as a JSON value. -/
def Json.ofWord (w : UInt64) : Json :=
  .integer w.toNat

/-- A signed word as a JSON value. -/
def Json.ofSignedWord (w : Int64) : Json :=
  .integer w.toInt

/-- A comment number as a JSON value. -/
def CommentId.toJson (id : CommentId) : Json :=
  .ofWord id.value

/-- A comment number from a JSON value. -/
def CommentId.ofJson? : Decoder CommentId := fun room value =>
  (Json.word room value).map CommentId.mk

/-- A user number as a JSON value. -/
def UserId.toJson (id : UserId) : Json :=
  .ofWord id.value

/-- A user number from a JSON value. -/
def UserId.ofJson? : Decoder UserId := fun room value =>
  (Json.word room value).map UserId.mk

/-- An instant as a JSON value. -/
def Instant.toJson (t : Instant) : Json :=
  .ofString t.text

/-- An instant from a JSON value. -/
def Instant.ofJson? : Decoder Instant := fun room value =>
  (Json.text room value).bind Instant.ofString?

/-- The kinds of commentables. -/
def Kind.all : List Kind :=
  [.article, .podcastEpisode]

/-- A kind as a JSON value. -/
def Kind.toJson (kind : Kind) : Json :=
  .ofString kind.name

/-- A kind from a JSON value. -/
def Kind.ofJson? : Decoder Kind :=
  Json.enumeration Kind.all Kind.name

namespace Reference

/-- The fields of a reference. -/
def fieldNames : List String :=
  ["kind", "id"]

/-- A reference as a JSON value. -/
def toJson (ref : Reference) : Json :=
  .ofMembers [("kind", ref.kind.toJson), ("id", .ofWord ref.id)]

/-- A reference from a JSON value. -/
def ofJson? : Decoder Reference := fun room value => do
  let fields ← Json.record fieldNames room value
  let kind ← fields.required "kind" Kind.ofJson?
  let id ← fields.required "id" Json.word
  some { kind := kind, id := id }

end Reference

end Discussion
