import Discussion.Disk.Basic
import Discussion.Event.Logged

/-!
# Programs

What the library does to the outside world is written down as a program: a tree
of actions, each with what follows for every answer.  Programs say nothing about
how actions are carried out, so the same program runs on a disk in memory, on a
real one, or one action at a time among the actions of others.
-/

namespace Discussion

/-- What a program may ask of the outside world. -/
inductive Action
  /-- Whether a path leads to something. -/
  | pathExists (path : String)
  /-- Whether a path leads to a directory. -/
  | isDirectory (path : String)
  | read (path : String)
  /-- Makes a file empty, creating it if it is missing. -/
  | create (path : String)
  /-- Adds bytes to the end of a file. -/
  | append (path : String) (bytes : Utf8.Bytes)
  | rename (source target : String)
  | remove (path : String)
  | copy (source target : String)
  /-- Makes a directory in one that is there. -/
  | makeDirectory (path : String)
  /-- The names in a directory. -/
  | listDirectory (path : String)
  | report (event : Event)
  | print (text : String)
  | printError (text : String)
  /-- Asks a person for consent. -/
  | confirm (question : String)
  /-- The local time as `YYYYMMDD-HHMMSS`. -/
  | localTime
deriving DecidableEq, Repr

/-- What the answer to an action is. -/
def Action.Answer : Action → Type
  | .pathExists _ => Bool
  | .isDirectory _ => Bool
  | .read _ => Except DiskFault Utf8.Bytes
  | .create _ => Except DiskFault Unit
  | .append _ _ => Except DiskFault Unit
  | .rename _ _ => Except DiskFault Unit
  | .remove _ => Except DiskFault Unit
  | .copy _ _ => Except DiskFault Unit
  | .makeDirectory _ => Except DiskFault Unit
  | .listDirectory _ => Except DiskFault (List String)
  | .report _ => Unit
  | .print _ => Unit
  | .printError _ => Unit
  | .confirm _ => Except DiskFault Bool
  | .localTime => String

/-- A program with a result: done, or an action with what follows for every answer. -/
inductive Program (α : Type)
  | done (result : α)
  | perform (action : Action) (next : action.Answer → Program α)

namespace Program

/-- The program that goes on with the result of another. -/
def bind {α β : Type} (program : Program α) (next : α → Program β) : Program β :=
  match program with
  | .done a => next a
  | .perform action after => .perform action fun answer => (after answer).bind next

instance : Monad Program where
  pure := .done
  bind := bind

/-- The program of one action. -/
def act (action : Action) : Program action.Answer :=
  .perform action .done

theorem bind_done {α : Type} (program : Program α) : program.bind .done = program := by
  induction program with
  | done a => rfl
  | perform action after ih => simp [bind, ih]

theorem bind_assoc {α β γ : Type} (program : Program α) (f : α → Program β) (g : β → Program γ) :
    (program.bind f).bind g = program.bind fun a => (f a).bind g := by
  induction program with
  | done a => rfl
  | perform action after ih => simp [bind, ih]

/-- Reports events in order. -/
def reportAll : List Event → Program Unit
  | [] => .done ()
  | event :: events => .perform (.report event) fun _ => reportAll events

instance : Reports Program where
  absorb x := (reportAll x.events).bind fun _ => .done x.value

/-! ## Programs of one action -/

/-- Whether a path leads to something. -/
def pathExists (path : String) : Program Bool :=
  act (.pathExists path)

/-- Whether a path leads to a directory. -/
def isDirectory (path : String) : Program Bool :=
  act (.isDirectory path)

/-- The content of a file. -/
def read (path : String) : Program (Except DiskFault Utf8.Bytes) :=
  act (.read path)

/-- Makes a file empty, creating it if it is missing. -/
def create (path : String) : Program (Except DiskFault Unit) :=
  act (.create path)

/-- Adds bytes to the end of a file. -/
def append (path : String) (bytes : Utf8.Bytes) : Program (Except DiskFault Unit) :=
  act (.append path bytes)

/-- Moves a file, replacing a file that is there. -/
def rename (source target : String) : Program (Except DiskFault Unit) :=
  act (.rename source target)

/-- Removes a file. -/
def remove (path : String) : Program (Except DiskFault Unit) :=
  act (.remove path)

/-- Copies a file, replacing a file that is there. -/
def copy (source target : String) : Program (Except DiskFault Unit) :=
  act (.copy source target)

/-- Makes a directory in one that is there. -/
def makeDirectory (path : String) : Program (Except DiskFault Unit) :=
  act (.makeDirectory path)

/-- The names in a directory. -/
def listDirectory (path : String) : Program (Except DiskFault (List String)) :=
  act (.listDirectory path)

/-- Reports an event. -/
def report (event : Event) : Program Unit :=
  act (.report event)

/-- Prints a text. -/
def print (text : String) : Program Unit :=
  act (.print text)

/-- Prints a text where errors belong. -/
def printError (text : String) : Program Unit :=
  act (.printError text)

/-- Asks a person for consent. -/
def confirm (question : String) : Program (Except DiskFault Bool) :=
  act (.confirm question)

/-- The local time. -/
def localTime : Program String :=
  act .localTime

/-! ## Programs that may fail -/

/-- Goes on with the result of a program that succeeds. -/
def onSuccess {ε α β : Type} (program : Program (Except ε α))
    (next : α → Program (Except ε β)) : Program (Except ε β) := do
  match ← program with
  | .ok a => next a
  | .error fault => pure (.error fault)

/-- A refusal of the disk as a fault, with what was being done. -/
def orFault {α : Type} (doing : String) (program : Program (Except DiskFault α)) :
    Program (Except Fault α) := do
  match ← program with
  | .ok a => pure (.ok a)
  | .error fault => pure (.error (.io (doing ++ fault.message)))

end Program

end Discussion
