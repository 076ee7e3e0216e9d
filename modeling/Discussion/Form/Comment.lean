import Discussion.Comment.Basic
import Discussion.Form.Identity

/-!
# The data form of comments and commentables

Both are records.  A commentable's kind and number stand among its own fields.
-/

namespace Discussion

namespace Comment

/-- The fields of a comment. -/
def fieldNames : List String :=
  ["id", "parent_id", "commentable", "user_id", "score", "hidden_by_commentable_user", "deleted",
    "created_at"]

/-- A comment as a JSON value. -/
def toJson (c : Comment) : Json :=
  .ofMembers [
    ("id", c.id.toJson),
    ("parent_id", c.parent.elim .null CommentId.toJson),
    ("commentable", c.commentable.toJson),
    ("user_id", c.user.toJson),
    ("score", .ofSignedWord c.score),
    ("hidden_by_commentable_user", .bool c.hidden),
    ("deleted", .bool c.deleted),
    ("created_at", c.createdAt.toJson)]

/-- A comment from a JSON value. -/
def ofJson? : Decoder Comment := fun room value => do
  let fields ← Json.record fieldNames room value
  let id ← fields.required "id" CommentId.ofJson?
  let parent ← fields.withDefault "parent_id" (Json.nullable CommentId.ofJson?) none
  let commentable ← fields.required "commentable" Reference.ofJson?
  let user ← fields.required "user_id" UserId.ofJson?
  let score ← fields.withDefault "score" Json.signedWord 0
  let hidden ← fields.withDefault "hidden_by_commentable_user" Json.flag false
  let deleted ← fields.withDefault "deleted" Json.flag false
  let createdAt ← fields.required "created_at" Instant.ofJson?
  some {
    id := id
    parent := parent
    commentable := commentable
    user := user
    score := score
    hidden := hidden
    deleted := deleted
    createdAt := createdAt }

end Comment

namespace Commentable

/-- The fields of a commentable, those of its reference first. -/
def fieldNames : List String :=
  ["kind", "id", "user_id", "co_author_ids", "any_comments_hidden", "score"]

/-- A commentable as a JSON value. -/
def toJson (owner : Commentable) : Json :=
  .ofMembers [
    ("kind", owner.reference.kind.toJson),
    ("id", .ofWord owner.reference.id),
    ("user_id", owner.user.toJson),
    ("co_author_ids", .array (owner.coAuthors.map UserId.toJson)),
    ("any_comments_hidden", .bool owner.anyCommentsHidden),
    ("score", .ofSignedWord owner.score)]

/-- A commentable from a JSON value. -/
def ofJson? : Decoder Commentable := fun room value => do
  let fields ← Json.mixedRecord fieldNames room value
  let kind ← fields.required "kind" (Json.mixedEnumeration Kind.all Kind.name)
  let id ← fields.required "id" Json.word
  let user ← fields.required "user_id" UserId.ofJson?
  let coAuthors ← fields.withDefault "co_author_ids" (Json.list UserId.ofJson?) []
  let anyCommentsHidden ← fields.withDefault "any_comments_hidden" Json.flag false
  let score ← fields.withDefault "score" Json.signedWord 0
  some {
    reference := { kind := kind, id := id }
    user := user
    coAuthors := coAuthors
    anyCommentsHidden := anyCommentsHidden
    score := score }

end Commentable

end Discussion
