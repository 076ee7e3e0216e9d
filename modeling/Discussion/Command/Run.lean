import Discussion.Command.Rows
import Discussion.Command.Basic
import Discussion.Settings.File
import Discussion.Store.Basic
import Discussion.View.Service

/-!
# Running commands

The programs of the commands.  A command that fails prints one line that tells what
was being done and why it failed.
-/

namespace Discussion

/-- Why a command fails. -/
inductive Failure
  | fault (cause : Fault)
  /-- The disk refused outside of the store and the settings. -/
  | disk (cause : DiskFault)
  /-- Neither a file nor a stored snapshot was named. -/
  | nothingToRender
deriving DecidableEq, Repr

/-- The wording of a failure. -/
def Failure.message : Failure → String
  | .fault cause => cause.message
  | .disk cause => cause.message
  | .nothingToRender => "Either a snapshot file or --commentable is required"

/-- Where a command finds what it was not told, and how it prints. -/
structure Environment where
  /-- The file of the settings if none is named. -/
  defaultSettings : String
  /-- The directory of the store if none is named. -/
  defaultStore : String
  palette : Palette
deriving DecidableEq, Repr

namespace Environment

/-- A directory of the environment, if it names one from the root. -/
def directoryOr (given : Option String) (default : String) : String :=
  (given.filter isAbsolute).getD default

/-- The environment of a user with a home directory, who may have moved the directories of
settings and data. -/
def ofHome (home configHome dataHome : Option String) (palette : Palette) : Environment :=
  match home with
  | some home =>
      let settings := directoryOr configHome (joinPath home ".config")
      let data := directoryOr dataHome (joinPath home ".local/share")
      { defaultSettings := joinPath settings "comment-tree/config.toml"
        defaultStore := joinPath data "comment-tree"
        palette := palette }
  | none =>
      { defaultSettings := "./.comment-tree/config.toml"
        defaultStore := "./.comment-tree"
        palette := palette }

/-- A program of the library within a command, with what is being done. -/
def during {α : Type} (doing : String) (program : Program (Except Fault α)) :
    Program (Except Failure α) := do
  match ← program with
  | .ok a => pure (.ok a)
  | .error fault => pure (.error (.fault (.context doing fault)))

/-- A program of the library within a command. -/
def plainly {α : Type} (program : Program (Except Fault α)) : Program (Except Failure α) := do
  match ← program with
  | .ok a => pure (.ok a)
  | .error fault => pure (.error (.fault fault))

/-- Prints a text and ends. -/
def printed (text : String) : Program (Except Failure Unit) := do
  Program.print text
  pure (.ok ())

/-- The mark of success. -/
def tick (palette : Palette) : String :=
  palette.paint .green "✓"

/-- The mark of failure. -/
def cross (palette : Palette) : String :=
  palette.paint .red "✗"

/-! ## Settings -/

/-- Loads the settings for a command. -/
def loadSettings (environment : Environment) (asked : Option String) :
    Program (Except Failure Settings) :=
  during
    (match asked with
      | some path => "Failed to load configuration from " ++ path
      | none => "Failed to load configuration")
    (Settings.loadOrDefault asked environment.defaultSettings)

/-- The path of the settings file. -/
def settingsFile (environment : Environment) (asked : Option String) : String :=
  asked.getD environment.defaultSettings

/-- Prints the settings in effect. -/
def showSettings (environment : Environment) (asked : Option String) (json : Bool) :
    Program (Except Failure Unit) :=
  (loadSettings environment asked).onSuccess fun settings =>
    if json then printed (settings.toJson.pretty ++ "\n")
    else do
      let palette := environment.palette
      Program.print (palette.paint .heading "Configuration:" ++ "\n" ++
        palette.paint .dimmed (settingsFile environment asked) ++ "\n\n")
      match settings.toText with
      | .error fault => pure (.error (.fault fault))
      | .ok text => printed (text ++ "\n")

/-- Copies the settings file to a file named for the present time, if there is one. -/
def backUp (palette : Palette) (path : String) : Program (Except Failure Unit) := do
  if ← Program.pathExists path then do
    let backup := path ++ ".backup-" ++ (← Program.localTime)
    match ← Program.copy path backup with
    | .error fault => pure (.error (.disk fault))
    | .ok () => printed (tick palette ++ " Backed up to " ++ backup ++ "\n")
  else pure (.ok ())

/-- Writes the default settings in the place of the former ones. -/
def writeDefaults (palette : Palette) (path : String) : Program (Except Failure Unit) :=
  (backUp palette path).onSuccess fun () =>
    (during ("Failed to write " ++ path) (Settings.save {} path)).onSuccess fun () =>
      printed (tick palette ++ " Wrote default configuration to " ++ path ++ "\n")

/-- Writes the default settings.  Former ones are only replaced by force or with consent. -/
def initSettings (palette : Palette) (path : String) (force : Bool) :
    Program (Except Failure Unit) := do
  if (← Program.pathExists path) && !force then do
    match ← Program.confirm "Overwrite existing configuration with defaults?" with
    | .error fault => pure (.error (.fault (.io fault.message)))
    | .ok false => printed "Init cancelled.\n"
    | .ok true => writeDefaults palette path
  else writeDefaults palette path

/-- Tells whether a settings file holds valid settings. -/
def validateSettings (palette : Palette) (path : String) : Program (Except Failure Unit) := do
  if ← Program.pathExists path then do
    match ← Settings.load path with
    | .ok _ => printed (tick palette ++ " Configuration is valid\n")
    | .error fault => do
        Program.printError
          (cross palette ++ " Invalid configuration: " ++ fault.message ++ "\n")
        pure (.ok ())
  else do
    Program.printError (cross palette ++ " Configuration not found at " ++ path ++ "\n")
    pure (.ok ())

/-! ## Stored snapshots -/

/-- Opens the store of a directory. -/
def openStore (environment : Environment) (directory : Option String) :
    Program (Except Fault Store) :=
  Store.openAt (directory.getD environment.defaultStore)

/-- Opens the store for a command on stored snapshots. -/
def openForSnapshots (environment : Environment) (directory : Option String) :
    Program (Except Failure Store) :=
  during "Failed to open snapshot store" (openStore environment directory)

/-- Stores the snapshot of a file. -/
def importSnapshot (environment : Environment) (file : String) (directory : Option String) :
    Program (Except Failure Unit) :=
  (openForSnapshots environment directory).onSuccess fun store =>
    (during ("Failed to read snapshot " ++ file) (Snapshot.load file)).onSuccess fun snapshot =>
      (plainly (store.save snapshot)).onSuccess fun () =>
        let palette := environment.palette
        printed (tick palette ++ " Imported " ++ palette.paint .cyan snapshot.reference.text ++
          " (" ++ decimal snapshot.comments.length ++ " comments)\n")

/-- The line of a stored snapshot. -/
def listLine (palette : Palette) (entry : Reference × Nat) : String :=
  "  " ++ palette.paint .cyan entry.1.text ++ " - " ++ decimal entry.2 ++ " comments\n"

/-- Lists the stored snapshots. -/
def listSnapshots (environment : Environment) (directory : Option String) :
    Program (Except Failure Unit) :=
  (openForSnapshots environment directory).onSuccess fun store =>
    (plainly store.list).onSuccess fun entries =>
      let palette := environment.palette
      if entries.isEmpty then
        printed ("No snapshots in " ++ palette.paint .dimmed store.directory ++ "\n")
      else
        printed (palette.paint .heading "Stored snapshots:" ++ "\n" ++
          String.join (entries.map (listLine palette)))

/-- Deletes a stored snapshot. -/
def deleteSnapshot (environment : Environment) (ref : Reference) (directory : Option String) :
    Program (Except Failure Unit) :=
  (openForSnapshots environment directory).onSuccess fun store =>
    (during ("Failed to delete snapshot " ++ ref.text) (store.delete ref)).onSuccess fun () =>
      printed (tick environment.palette ++ " Deleted " ++ ref.text ++ "\n")

/-! ## Rendering -/

/-- The snapshot to render. -/
def chosenSnapshot (environment : Environment) (request : RenderRequest) :
    Program (Except Failure Snapshot) :=
  match request.stored, request.file with
  | some ref, _ =>
      (plainly (openStore environment request.store)).onSuccess fun store =>
        during ("Failed to load snapshot " ++ ref.text) (store.load ref)
  | none, some file => during ("Failed to read snapshot " ++ file) (Snapshot.load file)
  | none, none => pure (.error .nothingToRender)

/-- The view of a snapshot that was asked for. -/
def chosenView (settings : Settings) (request : RenderRequest) (snapshot : Snapshot) :
    Program (Except Failure ThreadView) :=
  let ref := snapshot.reference
  match request.permalink with
  | some id =>
      during ("Failed to render comment " ++ id.text)
        (snapshot.source.permalink settings ref id request.viewer)
  | none =>
      during ("Failed to render " ++ ref.text)
        (snapshot.source.thread settings ref request.viewer request.limit request.order)

/-- Prints the view of a snapshot.  The scores are those of the same snapshot. -/
def printSnapshot (palette : Palette) (settings : Settings) (request : RenderRequest)
    (snapshot : Snapshot) : Program (Except Failure Unit) := do
  Program.report (.rendering snapshot.reference request.viewer)
  (chosenView settings request snapshot).onSuccess fun view =>
    let rows := view.plan.toRows (Scores.ofComments snapshot.comments)
    printed (if request.json then view.printJson rows
      else view.printText palette request.viewer rows)

/-- Renders a snapshot. -/
def render (environment : Environment) (asked : Option String) (request : RenderRequest) :
    Program (Except Failure Unit) :=
  (loadSettings environment asked).onSuccess fun settings =>
    (chosenSnapshot environment request).onSuccess fun snapshot =>
      printSnapshot environment.palette settings request snapshot

/-! ## All commands -/

/-- The program of an invocation. -/
def program (environment : Environment) (invocation : Invocation) :
    Program (Except Failure Unit) :=
  let asked := invocation.settingsFile
  let path := settingsFile environment asked
  match invocation.command with
  | .render request => render environment asked request
  | .importSnapshot file store => importSnapshot environment file store
  | .listSnapshots store => listSnapshots environment store
  | .deleteSnapshot ref store => deleteSnapshot environment ref store
  | .showSettings json => showSettings environment asked json
  | .initSettings force => initSettings environment.palette path force
  | .validateSettings => validateSettings environment.palette path
  | .settingsPath => printed (path ++ "\n")

/-- Runs an invocation to its exit code.  A failure is printed. -/
def run (environment : Environment) (invocation : Invocation) : Program UInt32 := do
  let palette : Palette :=
    { coloured := environment.palette.coloured && !invocation.noColour }
  match ← program { environment with palette := palette } invocation with
  | .ok () => pure 0
  | .error failure => do
      Program.printError ("Error: " ++ failure.message ++ "\n")
      pure 1

/-- The exit code for a command line that is refused. -/
def refusedCode : UInt32 := 2

end Environment

end Discussion
