import Std.Data.HashMap
import Discussion.Command.Style
import Discussion.Form.View
import Discussion.Json.Writer

/-!
# Printed views

A view as a list of rows, one for each comment of its plan in preorder, and the two
ways of printing it: as lines of text, indented by depth, and as a JSON text.
-/

namespace Discussion

/-- One comment of a plan, as it is printed. -/
structure Row where
  comment : CommentId
  parent : Option CommentId
  depth : Nat
  disposition : Disposition
  lowQuality : Bool
  childless : Bool
  /-- The score of the comment, if the snapshot has it. -/
  score : Option Int64
deriving DecidableEq, Repr

/-- The scores of comments by their numbers.  Of repeated numbers the last counts. -/
abbrev Scores := Std.HashMap CommentId Int64

/-- The scores of a list of comments. -/
def Scores.ofComments (comments : List Comment) : Scores :=
  comments.foldl (fun scores c => scores.insert c.id c.score) ∅

/-- The rows of a plan. -/
def Plan.toRows (plan : Plan) (scores : Scores) : List Row :=
  plan.rows.map fun (depth, parent, d) =>
    { comment := d.comment
      parent := parent.map (·.comment)
      depth := depth
      disposition := d.disposition
      lowQuality := d.lowQuality
      childless := d.childless
      score := scores[d.comment]? }

namespace Row

/-- A row as a JSON value. -/
def toJson (row : Row) : Json :=
  .ofMembers
    ([("comment_id", row.comment.toJson)] ++
      row.parent.elim [] (fun parent => [("parent_id", parent.toJson)]) ++
      [("depth", .integer row.depth), ("disposition", row.disposition.toJson)] ++
      (if row.lowQuality then [("low_quality", .bool true)] else []) ++
      [("childless", .bool row.childless), ("score", row.score.elim .null Json.ofSignedWord)])

/-- The word for a disposition in lines of text. -/
def label (palette : Palette) : Disposition → String
  | .full => palette.paint .green "full"
  | .deletedPlaceholder => palette.paint .red "deleted"
  | .hiddenPlaceholder => palette.paint .magenta "hidden"
  | .omit => palette.paint .dimmed "omitted"

/-- A row as a line of text. -/
def line (palette : Palette) (row : Row) : String :=
  String.ofList (List.replicate (2 * row.depth) ' ') ++ "#" ++ row.comment.text ++ " " ++
    label palette row.disposition ++ " (score " ++ row.score.elim "?" signedWordText ++ ")" ++
    (if row.lowQuality then " " ++ palette.paint .yellow "[low quality]" else "") ++ "\n"

end Row

namespace ThreadView

/-- A view with its rows as a JSON text. -/
def printJson (view : ThreadView) (rows : List Row) : String :=
  (Json.ofMembers (view.summary ++ [("comments", .array (rows.map Row.toJson))])).pretty ++ "\n"

/-- A view with its rows as lines of text. -/
def printText (palette : Palette) (view : ThreadView) (viewer : Viewer) (rows : List Row) :
    String :=
  palette.paint .bold view.commentable.text ++ " " ++ wordText view.totalComments ++
    " comments, " ++ decimal view.plan.renderedCount ++ " shown to " ++
    palette.paint .cyan viewer.text ++ "\n" ++
    view.permalink.elim "" (fun id => "Permalink: " ++ id.text ++ "\n") ++
    (if view.allVisible then ""
      else palette.paint .yellow "Some comments are hidden from this viewer" ++ "\n") ++
    "\n" ++ String.join (rows.map (Row.line palette))

end ThreadView

end Discussion
