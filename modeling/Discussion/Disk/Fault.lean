/-!
# Refusals of a disk

Why an operation on files cannot be done, and what no disk accepts as a path.
Names and paths have a greatest length.
-/

namespace Discussion

/-- Why a disk refuses. -/
inductive DiskFault
  | missing
  | notDirectory
  | isDirectory
  | alreadyExists
  /-- A name or a path is too long. -/
  | nameTooLong
  /-- A path holds the character that ends paths inside the system. -/
  | nulInPath
  /-- Only a file can be copied. -/
  | notRegular
  /-- Another reason, in the words of the system. -/
  | other (text : String)
deriving DecidableEq, Repr

/-- The wording of a refusal. -/
def DiskFault.message : DiskFault → String
  | .missing => "No such file or directory (os error 2)"
  | .notDirectory => "Not a directory (os error 20)"
  | .isDirectory => "Is a directory (os error 21)"
  | .alreadyExists => "File exists (os error 17)"
  | .nameTooLong => "File name too long (os error 36)"
  | .nulInPath => "file name contained an unexpected NUL byte"
  | .notRegular => "the source path is neither a regular file nor a symlink to a regular file"
  | .other text => text

/-- The greatest number of bytes of a name. -/
def maxNameBytes : Nat := 255

/-- The greatest number of bytes of a path. -/
def maxPathBytes : Nat := 4095

/-- Why a path leads nowhere on any disk. -/
def pathFault? (path : String) : Option DiskFault :=
  if path.toList.contains '\x00' then some .nulInPath
  else if path = "" then some .missing
  else if maxPathBytes < path.utf8ByteSize then some .nameTooLong
  else none

end Discussion
