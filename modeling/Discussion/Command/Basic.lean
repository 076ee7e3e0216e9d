import Discussion.Command.Arguments
import Discussion.Commentable.Text
import Discussion.Viewer.Text

/-!
# Commands

What a command line asks for.  The options that hold for all commands may stand
before or after a command's name; of two settings files the one given later on the
way to the command counts, and one given in the environment only if none is given.
-/

namespace Discussion

/-- What is rendered. -/
structure RenderRequest where
  /-- The file of the snapshot. -/
  file : Option String := none
  /-- The commentable whose stored snapshot is rendered instead. -/
  stored : Option Reference := none
  /-- The directory of the store. -/
  store : Option String := none
  viewer : Viewer := .anonymous
  permalink : Option CommentId := none
  limit : Option UInt64 := none
  order : Order := .top
  json : Bool := false
deriving DecidableEq, Repr

/-- What a command line asks for. -/
inductive Command
  | render (request : RenderRequest)
  | importSnapshot (file : String) (store : Option String)
  | listSnapshots (store : Option String)
  | deleteSnapshot (ref : Reference) (store : Option String)
  | showSettings (json : Bool)
  | initSettings (force : Bool)
  | validateSettings
  | settingsPath
deriving DecidableEq, Repr

/-- A command with the options that hold for all commands. -/
structure Invocation where
  command : Command
  /-- The file of the settings. -/
  settingsFile : Option String := none
  noColour : Bool := false
  /-- How often more reports were asked for, on the level that asked last. -/
  verbosity : Nat := 0
deriving DecidableEq, Repr

namespace Command

open Arguments

/-- The options that hold for all commands. -/
def globalSpecs : List Spec :=
  [{ long := "verbose", short := some 'v', kind := .counted },
    { long := "config", short := some 'c', kind := .value },
    { long := "no-color", kind := .flag }]

/-- A value that must not be empty. -/
def nonEmpty? (value : String) : Option String :=
  if value = "" then none else some value

/-- The value of an option, read if it was given. -/
def optional? {α : Type} (sorted : Sorted) (name : String) (read? : String → Option α) :
    Option (Option α) :=
  match sorted.value? name with
  | none => some none
  | some value => (read? value).map some

/-- Adds the options of a level that hold for all commands; what a deeper level says
counts before what an outer one said.  A settings file of the environment is looked at on
every level without one of its own. -/
def addGlobals (environment : Option String) (sorted : Sorted) (outer : Invocation) :
    Option Invocation := do
  let given ← optional? sorted "config" nonEmpty?
  let _ ← if given.isNone then
      match environment with
      | none => some none
      | some path => (nonEmpty? path).map some
    else some none
  some { outer with
    settingsFile := given.or outer.settingsFile
    noColour := outer.noColour || sorted.has "no-color"
    verbosity := if sorted.has "verbose" then sorted.count "verbose" else outer.verbosity }

/-- The options of a command that has no further commands, with at most so many operands. -/
def sortLeaf (specs : List Spec) (operands : Nat) (words : List String) : Option Sorted := do
  let sorted ← sort (globalSpecs ++ specs) false words
  if sorted.operands.length ≤ operands then some sorted else none

/-- The option that names the directory of the store. -/
def storeSpec : Spec :=
  { long := "store", kind := .value }

/-- The options of `render`. -/
def renderSpecs : List Spec :=
  [{ long := "commentable", kind := .value }, storeSpec, { long := "viewer", kind := .value },
    { long := "permalink", kind := .value }, { long := "limit", kind := .value },
    { long := "order", kind := .value }, { long := "json", kind := .flag }]

/-- The request of `render`.  A file and a stored snapshot exclude each other. -/
def readRender? (words : List String) : Option (Sorted × Command) := do
  let sorted ← sortLeaf renderSpecs 1 words
  let file ←
    match sorted.operands.head? with
    | none => some none
    | some file => (nonEmpty? file).map some
  let stored ← optional? sorted "commentable" fun s => (Reference.read s).toOption
  let store ← optional? sorted "store" nonEmpty?
  let viewer ← optional? sorted "viewer" fun s => (Viewer.read s).value.toOption
  let permalink ← optional? sorted "permalink" fun s => (CommentId.read s).toOption
  let limit ← optional? sorted "limit" wordOfString?
  let order ← optional? sorted "order" fun s => (Order.read s).toOption
  if file.isSome && stored.isSome then none
  else
    some (sorted, .render {
      file := file
      stored := stored
      store := store
      viewer := viewer.getD .anonymous
      permalink := permalink
      limit := limit
      order := order.getD .top
      json := sorted.has "json" })

/-- The commands on stored snapshots. -/
def readSnapshot? (name : String) (words : List String) : Option (Sorted × Command) :=
  if name = "import" then do
    let sorted ← sortLeaf [storeSpec] 1 words
    let file ← sorted.operands.head?.bind nonEmpty?
    let store ← optional? sorted "store" nonEmpty?
    some (sorted, .importSnapshot file store)
  else if name = "list" then do
    let sorted ← sortLeaf [storeSpec] 0 words
    let store ← optional? sorted "store" nonEmpty?
    some (sorted, .listSnapshots store)
  else if name = "delete" then do
    let sorted ← sortLeaf [storeSpec] 1 words
    let ref ← sorted.operands.head?.bind fun s => (Reference.read s).toOption
    let store ← optional? sorted "store" nonEmpty?
    some (sorted, .deleteSnapshot ref store)
  else none

/-- The commands on settings. -/
def readSettings? (name : String) (words : List String) : Option (Sorted × Command) :=
  if name = "show" then do
    let sorted ← sortLeaf [{ long := "json", kind := .flag }] 0 words
    some (sorted, .showSettings (sorted.has "json"))
  else if name = "init" then do
    let sorted ← sortLeaf [{ long := "force", kind := .flag }] 0 words
    some (sorted, .initSettings (sorted.has "force"))
  else if name = "validate" then do
    let sorted ← sortLeaf [] 0 words
    some (sorted, .validateSettings)
  else if name = "path" then do
    let sorted ← sortLeaf [] 0 words
    some (sorted, .settingsPath)
  else none

/-- The name of a command and the words after it, with the options before it. -/
def splitCommand? (words : List String) : Option (Sorted × String) := do
  let sorted ← sort globalSpecs true words
  let name ← sorted.operands.head?
  some (sorted, name)

/-- The levels of options on the way to a command, the outermost first, and the command. -/
def readLevels? (words : List String) : Option (List Sorted × Command) := do
  let (outer, name) ← splitCommand? words
  if name = "render" then do
    let (inner, command) ← readRender? outer.rest
    some ([outer, inner], command)
  else do
    let read? ←
      if name = "snapshot" then some readSnapshot?
      else if name = "config" then some readSettings?
      else none
    let (middle, name) ← splitCommand? outer.rest
    let (inner, command) ← read? name middle.rest
    some ([outer, middle, inner], command)

/-- What a command line asks for, `none` if it must be refused. -/
def read? (environment : Option String) (words : List String) : Option Invocation := do
  let (levels, command) ← readLevels? words
  let invocation ← levels.foldlM (fun outer sorted => addGlobals environment sorted outer)
    { command := command }
  some { invocation with settingsFile := invocation.settingsFile.or environment }

end Command

end Discussion
