import Discussion.Form.Plan
import Discussion.Form.Settings
import Discussion.View.Basic

/-!
# The data form of views

A view is a record; the permalink is left out when there is none.
-/

namespace Discussion

/-- A mode as a JSON value. -/
def RenderMode.toJson (mode : RenderMode) : Json :=
  .ofString mode.name

namespace ThreadView

/-- The fields of a view. -/
def fieldNames : List String :=
  ["commentable", "total_comments", "mode", "all_comments_visible", "permalink_root", "plan"]

/-- The members of a view's object before the plan. -/
def summary (view : ThreadView) : List (String × Json) :=
  [("commentable", view.commentable.toJson),
    ("total_comments", .ofWord view.totalComments),
    ("mode", view.mode.toJson),
    ("all_comments_visible", .bool view.allVisible)] ++
    view.permalink.elim [] fun id => [("permalink_root", id.toJson)]

/-- A view as a JSON value. -/
def toJson (view : ThreadView) : Json :=
  .ofMembers (view.summary ++ [("plan", view.plan.toJson)])

/-- A view from a JSON value. -/
def ofJson? : Decoder ThreadView := fun room value => do
  let fields ← Json.record fieldNames room value
  let commentable ← fields.required "commentable" Reference.ofJson?
  let totalComments ← fields.required "total_comments" Json.word
  let mode ← fields.required "mode" RenderMode.ofJson?
  let allVisible ← fields.required "all_comments_visible" Json.flag
  let permalink ← fields.withDefault "permalink_root" (Json.nullable CommentId.ofJson?) none
  let plan ← fields.required "plan" Plan.ofJson?
  some {
    commentable := commentable
    totalComments := totalComments
    mode := mode
    allVisible := allVisible
    permalink := permalink
    plan := plan }

/-- The view whose text is given. -/
def ofText (s : String) : Except Fault ThreadView :=
  match (Json.ofText? s).bind (Json.decode? ofJson?) with
  | none => .error (.serialization "not a view")
  | some view => .ok view

end ThreadView

end Discussion
