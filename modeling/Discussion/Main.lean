import Std.Time.Format
import Discussion.Command.Run

/-!
# The command line

Carries out programs on the disk and the terminal of the system.  Nothing is
decided here.
-/

namespace Discussion

/-- Whether an error has the number of the system; some operations give it with a minus sign. -/
def isNumber (code number : UInt32) : Bool :=
  code == number || code == 0 - number

/-- Why the system refused. -/
def DiskFault.ofError : IO.Error → DiskFault
  | .noFileOrDirectory _ _ _ => .missing
  | .alreadyExists _ _ _ => .alreadyExists
  | .inappropriateType file code text =>
      if isNumber code 20 then .notDirectory
      else if isNumber code 21 then .isDirectory
      else .other (toString (IO.Error.inappropriateType file code text))
  | .invalidArgument file code text =>
      if isNumber code 36 then .nameTooLong
      else .other (toString (IO.Error.invalidArgument file code text))
  | error => .other (toString error)

/-- The result of an operation of the system, or why it refused. -/
def attempt {α : Type} (operation : IO α) : IO (Except DiskFault α) := do
  match ← operation.toBaseIO with
  | .ok a => pure (.ok a)
  | .error error => pure (.error (.ofError error))

/-- The reports that are printed, by how often more were asked for. -/
def shownLevel : Nat → Level
  | 0 => .warn
  | 1 => .info
  | _ => .debug

/-- Asks at the terminal, if there is one. -/
def askConsent (question : String) : IO (Except DiskFault Bool) := do
  let input ← IO.getStdin
  if ← input.isTty then do
    IO.eprint (question ++ " [y/n] ")
    let line ← input.getLine
    pure (.ok (line.toList.head? == some 'y' || line.toList.head? == some 'Y'))
  else pure (.error (.other "not a terminal"))

/-- Carries out an action. -/
def perform (verbosity : Nat) : (action : Action) → IO action.Answer
  | .pathExists path => do ((← IO.currentDir) / path).pathExists
  | .isDirectory path => do ((← IO.currentDir) / path).isDir
  | .read path => do
      let place := (← IO.currentDir) / path
      if ← place.isDir then pure (.error .isDirectory)
      else attempt do pure (← IO.FS.readBinFile place).toList
  | .create path => attempt (IO.FS.writeBinFile path ByteArray.empty)
  | .append path bytes => attempt do
      let handle ← IO.FS.Handle.mk path .append
      handle.write (ByteArray.mk bytes.toArray)
      handle.flush
  | .rename source target => attempt (IO.FS.rename source target)
  | .remove path => attempt (IO.FS.removeFile path)
  | .copy source target => do
      if ← ((← IO.currentDir) / source).isDir then pure (.error .notRegular)
      else attempt do IO.FS.writeBinFile target (← IO.FS.readBinFile source)
  | .makeDirectory path => attempt (IO.FS.createDir path)
  | .listDirectory path => attempt do
      let entries ← ((← IO.currentDir) / path).readDir
      pure ((entries.toList.map (·.fileName)).mergeSort fun a b => decide (a ≤ b))
  | .report event => do
      if event.level.isKeptBy (shownLevel verbosity) then
        IO.eprintln (event.level.name ++ " " ++ event.message)
  | .print text => IO.print text
  | .printError text => IO.eprint text
  | .confirm question => askConsent question
  | .localTime => do
      let now ← Std.Time.PlainDateTime.now
      pure (now.format "uuuuMMdd-HHmmss")

/-- Carries out a program. -/
def execute {α : Type} (verbosity : Nat) : Program α → IO α
  | .done a => pure a
  | .perform action next => do
      let answer ← perform verbosity action
      execute verbosity (next answer)

/-- The environment of the process. -/
def readEnvironment : IO Environment := do
  let terminal ← (← IO.getStdout).isTty
  let palette := Palette.choose (← IO.getEnv "CLICOLOR_FORCE") (← IO.getEnv "NO_COLOR")
    (← IO.getEnv "CLICOLOR") terminal
  pure (Environment.ofHome (← IO.getEnv "HOME") (← IO.getEnv "XDG_CONFIG_HOME")
    (← IO.getEnv "XDG_DATA_HOME") palette)

end Discussion

open Discussion in
/-- Runs the command that the arguments name. -/
def main (arguments : List String) : IO UInt32 := do
  match Command.read? (← IO.getEnv "COMMENT_TREE_CONFIG") arguments with
  | none => do
      IO.eprintln "error: the arguments are not understood"
      pure Environment.refusedCode
  | some invocation =>
      execute invocation.verbosity ((← readEnvironment).run invocation)
