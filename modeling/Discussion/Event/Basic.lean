import Discussion.Fault
import Discussion.Order
import Discussion.Text.Quoted
import Discussion.Viewer.Basic

/-!
# Events

What the library reports while it works, besides its results.  An event records
what happened; its level and its wording are functions of it.
-/

namespace Discussion

/-- How much an event matters. -/
inductive Level
  | warn
  | info
  | debug
deriving DecidableEq, Repr

namespace Level

/-- The name of a level in reports. -/
def name : Level → String
  | .warn => "WARN"
  | .info => "INFO"
  | .debug => "DEBUG"

/-- Lower ranks matter more. -/
def rank : Level → Nat
  | .warn => 0
  | .info => 1
  | .debug => 2

/-- Whether an event of the first level is kept by a report of the second. -/
def isKeptBy (level asked : Level) : Bool :=
  level.rank ≤ asked.rank

end Level

/-- What happened. -/
inductive Event
  /-- A comment repeats the number of an earlier one. -/
  | duplicateComment (id : CommentId)
  /-- A comment replies to one that is missing, itself, or of another commentable. -/
  | outsideParent (id parent : CommentId)
  /-- Comments whose parents lead round in a circle were left out. -/
  | unreachable (count : Nat)
  | builtThread (shownRoots roots shown total : Nat) (order : Order)
  | builtSubtree (root : CommentId) (count : Nat)
  | planned (viewer : Viewer) (shown total : Nat)
  | unknownRole (name : String) (user : UserId)
  | rendering (ref : Reference) (viewer : Viewer)
  | rendered (ref : Reference) (viewer : Viewer) (total shown : Nat)
  /-- The comment of a permalink is not shown to the viewer. -/
  | notVisible (id : CommentId) (viewer : Viewer)
  | loadedSettings (path : String)
  | savedSettings (path : String)
  | createdDirectory (path : String)
  | readSnapshot (ref : Reference) (count : Nat) (path : String)
  | savedSnapshot (ref : Reference) (path : String)
  | deletedSnapshot (ref : Reference) (path : String)
  /-- A file of the store that holds no snapshot. -/
  | unreadableSnapshot (path : String) (fault : Fault)
deriving DecidableEq, Repr

/-! ## Level and wording -/

namespace Event

/-- How much an event matters. -/
def level : Event → Level
  | .duplicateComment .. => .warn
  | .outsideParent .. => .warn
  | .unreachable .. => .warn
  | .unknownRole .. => .warn
  | .unreadableSnapshot .. => .warn
  | .rendered .. => .info
  | _ => .debug

/-- The wording of an event. -/
def message : Event → String
  | .duplicateComment id => "Duplicate comment " ++ id.text ++ " in snapshot, keeping first"
  | .outsideParent id parent =>
      "Comment " ++ id.text ++ " references parent " ++ parent.text ++
        " outside this thread, treating as root"
  | .unreachable count =>
      "Dropped " ++ decimal count ++ " comments unreachable from any root (parent cycle)"
  | .builtThread shownRoots roots shown total order =>
      "Built comment tree: " ++ decimal shownRoots ++ " of " ++ decimal roots ++ " roots, " ++
        decimal shown ++ " of " ++ decimal total ++ " comments, order=" ++ order.name
  | .builtSubtree root count =>
      "Built permalink tree for comment " ++ root.text ++ ": " ++ decimal count ++ " comments"
  | .planned viewer shown total =>
      "Walked comment tree for " ++ viewer.text ++ ": " ++ decimal shown ++ " of " ++
        decimal total ++ " comments rendered"
  | .unknownRole name user =>
      "Unrecognized role '" ++ name ++ "' for user " ++ user.text ++
        ", treating viewer as anonymous"
  | .rendering ref viewer => "Rendering " ++ ref.text ++ " for " ++ viewer.text
  | .rendered ref viewer total shown =>
      "Rendered " ++ ref.text ++ " for " ++ viewer.text ++ ": " ++ decimal total ++
        " comments, " ++ decimal shown ++ " shown"
  | .notVisible id viewer => "Comment " ++ id.text ++ " is not visible to " ++ viewer.text
  | .loadedSettings path => "Loaded configuration from " ++ quoted path
  | .savedSettings path => "Saved configuration to " ++ quoted path
  | .createdDirectory path => "Created snapshots directory: " ++ quoted path
  | .readSnapshot ref count path =>
      "Read snapshot of " ++ ref.text ++ " (" ++ decimal count ++ " comments) from " ++
        quoted path
  | .savedSnapshot ref path => "Saved snapshot " ++ ref.text ++ " to " ++ quoted path
  | .deletedSnapshot ref path => "Deleted snapshot " ++ ref.text ++ " from " ++ quoted path
  | .unreadableSnapshot path fault =>
      "Failed to read snapshot file " ++ quoted path ++ ": " ++ fault.message

end Event

end Discussion
