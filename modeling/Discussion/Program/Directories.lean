import Discussion.Program.Basic

/-!
# Making directories

How a directory is made together with those that are missing on the way to it.
The search for a directory that is there goes from the path outwards, so that
nothing is asked about the outer ones if the inner one can be made; the missing
ones are then made inwards.  A failure leaves those that were made before it.
-/

namespace Discussion

namespace Program

/-- Goes on where a directory could not be made: it is no failure if it is there. -/
def unlessDirectory (path : String) (fault : DiskFault)
    (next : Program (Except DiskFault Unit)) : Program (Except DiskFault Unit) := do
  if ← isDirectory path then next else pure (.error fault)

/-- Makes directories in order, those that are there excepted. -/
def makeEach : List String → Program (Except DiskFault Unit)
  | [] => pure (.ok ())
  | path :: paths => do
      match ← makeDirectory path with
      | .ok () => makeEach paths
      | .error fault => unlessDirectory path fault (makeEach paths)

/-- Makes the first of some directories that can be made, each lying in the next, and then
those that lie in it.  The directories `inside` are known to be missing. -/
def makeOutwards (inside : List String) : List String → Program (Except DiskFault Unit)
  | [] => makeEach inside
  | path :: outside => do
      match ← makeDirectory path with
      | .ok () => makeEach inside
      | .error .missing => makeOutwards (path :: inside) outside
      | .error fault => unlessDirectory path fault (makeEach inside)

/-- Makes a directory and all that are missing on the way to it. -/
def makeDirectories (path : String) : Program (Except DiskFault Unit) :=
  if pathsTo path = [] then pure (.ok ())
  else makeOutwards [] (path :: (pathsBetween path).reverse)

end Program

end Discussion
