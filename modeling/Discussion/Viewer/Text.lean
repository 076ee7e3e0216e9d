import Discussion.Event.Logged
import Discussion.Text.Split

/-!
# Texts of viewers and orders

Reading a viewer from the text in which a user names one, and from role names.
A role that is not known makes the viewer anonymous, with a warning: an unknown
role never gives rights.
-/

namespace Discussion

/-- The order that a text names. -/
def Order.read (s : String) : Except Fault Order :=
  if s = "top" then .ok .top
  else if s = "oldest" then .ok .oldest
  else if s = "latest" then .ok .latest
  else .error (.invalidArgument (.order s))

/-- The role that a text names between blanks. -/
def Role.read? (s : String) : Option Role :=
  let name := trimmed s
  if name = "super_admin" then some .superAdmin
  else if name = "admin" then some .admin
  else if name = "moderator" ∨ name = "tag_moderator" then some .moderator
  else if name = "trusted" ∨ name = "trusted_user" then some .trustedUser
  else none

namespace Viewer

/-- The roles of a list of names, or the first name that is not known. -/
def rolesOfNames (names : List String) : Except String Roles :=
  names.foldlM
    (fun roles name =>
      match Role.read? name with
      | some role => .ok (roles.insert role)
      | none => .error name)
    Roles.empty

/-- The signed-in viewer with the named roles; anonymous if a name is not known. -/
def ofRoleNames (user : UserId) (names : List String) : Logged Viewer :=
  match rolesOfNames names with
  | .ok roles => pure (.signedIn user roles)
  | .error name => do
      Logged.report (.unknownRole name user)
      pure .anonymous

/-- The part of a text before its first colon, and the part after it, if there is one. -/
def splitColon (cs : List Char) : List Char × Option (List Char) :=
  match cs.dropWhile (· != ':') with
  | [] => (cs, none)
  | _ :: rest => (cs.takeWhile (· != ':'), some rest)

/-- The role names of a comma-separated text; blank ones do not count. -/
def roleNames (cs : List Char) : List String :=
  ((splitAtMarks ',' cs).filter fun part => !(trimBlanks part).isEmpty).map String.ofList

/-- The viewer that a text spells: nothing or `anonymous`, or `user`, a number and,
after a second colon, role names. -/
def read (s : String) : Logged (Except Fault Viewer) :=
  let text := trimmed s
  if text = "" ∨ text = "anonymous" then pure (.ok .anonymous)
  else
    let (first, afterFirst) := splitColon text.toList
    if String.ofList first ≠ "user" then
      pure (.error (.invalidArgument (.viewerShape text)))
    else
      let second := afterFirst.map splitColon
      match second.bind fun (number, _) => readWord? number with
      | none => pure (.error (.invalidArgument (.viewerNumber text)))
      | some user => do
          let names := (second.bind (·.2)).elim [] roleNames
          let viewer ← ofRoleNames ⟨user⟩ names
          pure (.ok viewer)

end Viewer

end Discussion
