import Discussion.Program.Directories
import Discussion.Settings.Text

/-!
# Settings files

Loading settings from a file and saving them to one.  Only valid settings are
loaded and saved.
-/

namespace Discussion

namespace Settings

/-- The valid settings of a file. -/
def load (path : String) : Program (Except Fault Settings) := do
  if ← Program.pathExists path then
    ((Program.read path).orFault "").onSuccess fun bytes =>
      match Utf8.text? bytes with
      | none => pure (.error (.io "stream did not contain valid UTF-8"))
      | some text =>
          match ofText text with
          | .error fault => pure (.error fault)
          | .ok settings => do
              Program.report (.loadedSettings path)
              pure (.ok settings)
  else pure (.error (.fileNotFound path))

/-- The settings of a file that was asked for; otherwise those of the default file, or the
defaults if there is no such file. -/
def loadOrDefault (asked : Option String) (defaultPath : String) :
    Program (Except Fault Settings) := do
  match asked with
  | some path => load path
  | none => do
      if ← Program.pathExists defaultPath then load defaultPath
      else pure (.ok {})

/-- Makes the directory of a file. -/
def makeParent (path : String) : Program (Except Fault Unit) :=
  match parentPath? path with
  | none => pure (.ok ())
  | some parent => (Program.makeDirectories parent).orFault ""

/-- Writes a text to a file in the place of its former content. -/
def overwrite (path text : String) : Program (Except Fault Unit) :=
  ((Program.create path).orFault "").onSuccess fun () =>
    (Program.append path (Utf8.encode text)).orFault ""

/-- Saves valid settings to a file, making the directories that are missing. -/
def save (settings : Settings) (path : String) : Program (Except Fault Unit) :=
  match settings.validate with
  | .error fault => pure (.error fault)
  | .ok () =>
      (makeParent path).onSuccess fun () =>
        match settings.toText with
        | .error fault => pure (.error fault)
        | .ok text =>
            (overwrite path text).onSuccess fun () => do
              Program.report (.savedSettings path)
              pure (.ok ())

end Settings

end Discussion
