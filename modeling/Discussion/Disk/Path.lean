import Discussion.Text.Split

/-!
# Paths

A path is a text of names with slashes between them.  Names are followed one after
the other, from the root if the path begins with a slash and from the working
directory otherwise.  The text of a path is kept as it was given: `a/../b` is not
`b`, for it only leads there if `a` is a directory.
-/

namespace Discussion

/-- Whether a path starts at the root. -/
def isAbsolute (path : String) : Bool :=
  path.toList.head? == some '/'

/-- A path seen from a directory. -/
def joinPath (directory path : String) : String :=
  if isAbsolute path then path
  else if directory = "" ∨ directory.toList.getLast? = some '/' then directory ++ path
  else directory ++ "/" ++ path

/-- The names of a path. -/
def innerNames (path : String) : List String :=
  ((splitAtMarks '/' path.toList).filter fun part => !part.isEmpty).map String.ofList

/-- The names of a path.  A slash at the end counts as the name of the directory itself. -/
def pathNames (path : String) : List String :=
  innerNames path ++ if path.toList.getLast? = some '/' then ["."] else []

/-! ## The way to a path -/

/-- Whether a part between slashes leads on: it is not empty and not the name of the
directory itself, except at the beginning of a path. -/
def leadsOn (first : Bool) (part : List Char) : Bool :=
  !part.isEmpty && (first || part != ['.'])

/-- The beginnings of a text of parts that end with a part that leads on, shortest first. -/
def waypoints (before : List Char) : List (List Char) → List (List Char)
  | [] => []
  | part :: parts =>
      let others := waypoints (before ++ part ++ ['/']) parts
      if leadsOn before.isEmpty part then (before ++ part) :: others else others

/-- A beginning that is found is a beginning of the whole text. -/
theorem prefix_of_mem_waypoints {before way : List Char} {parts : List (List Char)}
    (h : way ∈ waypoints before parts) : way <+: before ++ ['/'].intercalate parts := by
  induction parts generalizing before with
  | nil => simp [waypoints] at h
  | cons part parts ih =>
      have hcases : way = before ++ part ∨ way ∈ waypoints (before ++ part ++ ['/']) parts := by
        rw [waypoints] at h
        split at h
        · exact List.mem_cons.mp h
        · exact Or.inr h
      cases parts with
      | nil =>
          rcases hcases with rfl | hmem
          · simp
          · simp [waypoints] at hmem
      | cons next others =>
          rw [List.intercalate_cons_cons]
          rcases hcases with rfl | hmem
          · exact ⟨['/'] ++ ['/'].intercalate (next :: others), by simp⟩
          · simpa using ih hmem

/-- Where a path starts: the root, or the working directory with an empty text. -/
def pathStart (path : String) : String :=
  if isAbsolute path then "/" else ""

/-- The paths on the way to a path after its start, outermost first.  The last one is the path
without slashes and names of the directory itself at its end. -/
def pathsTo (path : String) : List String :=
  (waypoints [] (splitAtMarks '/' path.toList)).map String.ofList

/-- Every path on the way to a path is a beginning of its text. -/
theorem prefix_of_mem_pathsTo {path way : String} (h : way ∈ pathsTo path) :
    way.toList <+: path.toList := by
  obtain ⟨cs, hmem, rfl⟩ := List.mem_map.mp h
  simpa [intercalate_splitAtMarks] using prefix_of_mem_waypoints hmem

/-- The paths of the directories between the start of a path and what it leads to. -/
def pathsBetween (path : String) : List String :=
  (pathsTo path).dropLast

/-- The path of the directory that holds what a path leads to, if there is one. -/
def parentPath? (path : String) : Option String :=
  if pathsTo path = [] then none
  else some ((pathsBetween path).getLastD (pathStart path))

end Discussion
