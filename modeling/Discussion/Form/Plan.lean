import Discussion.Fault
import Discussion.Form.Identity
import Discussion.Json.Reader
import Discussion.Plan.Basic

/-!
# The data form of plans

A plan is a record of the list of its trees; a tree is a record of its decision
and, unless it is empty, the list of its replies.  Every level of a plan nests
two levels of JSON, so plans beyond a depth can be written but not read.
-/

namespace Discussion

/-- A disposition as a JSON value. -/
def Disposition.toJson (d : Disposition) : Json :=
  .ofString d.name

/-- A disposition from a JSON value. -/
def Disposition.ofJson? : Decoder Disposition :=
  Json.enumeration [.full, .deletedPlaceholder, .hiddenPlaceholder, .omit] Disposition.name

/-- The fields of a tree of a plan. -/
def Decision.fieldNames : List String :=
  ["comment_id", "disposition", "low_quality", "childless", "children"]

/-- A decision and the JSON values of the trees below it as a JSON value. -/
def Decision.toJson (d : Decision) (children : List Json) : Json :=
  .ofMembers
    ([("comment_id", d.comment.toJson), ("disposition", d.disposition.toJson)] ++
      (if d.lowQuality then [("low_quality", .bool true)] else []) ++
      [("childless", .bool d.childless)] ++
      (if children.isEmpty then [] else [("children", .array children)]))

/-- The decision of a tree from the fields of its record. -/
def Decision.ofFields? (fields : Json.Fields) : Option Decision := do
  let comment ← fields.required "comment_id" CommentId.ofJson?
  let disposition ← fields.required "disposition" Disposition.ofJson?
  let lowQuality ← fields.withDefault "low_quality" Json.flag false
  let childless ← fields.required "childless" Json.flag
  some {
    comment := comment
    disposition := disposition
    lowQuality := lowQuality
    childless := childless }

namespace Plan

/-- The trees of a plan as JSON values. -/
def treesToJson (plan : Plan) : List Json :=
  Forest.fold (fun _ _ => ()) [] (fun _ d children siblings => d.toJson children :: siblings) ()
    plan

/-- A plan as a JSON value. -/
def toJson (plan : Plan) : Json :=
  .ofMembers [("nodes", .array plan.treesToJson)]

mutual

/-- A tree of a plan from a JSON value. -/
def treeOfJson? : Decoder (Tree Decision)
  | 0, _ => none
  | room + 1, value => do
      let fields ← Json.record Decision.fieldNames (room + 1) value
      let decision ← Decision.ofFields? fields
      let children ←
        match fields.get? "children" with
        | none => some []
        | some list => treesOfJson? room list
      some { label := decision, children := Forest.ofTrees children }

/-- A list of trees of a plan from a JSON value. -/
def treesOfJson? : Decoder (List (Tree Decision))
  | room + 1, .array items => items.mapM (treeOfJson? room)
  | _, _ => none

end

/-- A plan from a JSON value. -/
def ofJson? : Decoder Plan := fun room value => do
  let fields ← Json.record ["nodes"] room value
  let trees ← fields.required "nodes" treesOfJson?
  some (Forest.ofTrees trees)

/-- The plan whose text is given. -/
def ofText (s : String) : Except Fault Plan :=
  match (Json.ofText? s).bind (Json.decode? ofJson?) with
  | none => .error (.serialization "not a plan")
  | some plan => .ok plan

end Plan

end Discussion
