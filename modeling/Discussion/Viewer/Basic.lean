import Discussion.Identity

/-!
# Viewers

Who is looking at a thread: nobody in particular, or a signed-in user with a
set of roles.  Three of the four roles make a viewer a moderator.
-/

namespace Discussion

/-- The roles of a signed-in user, in the order in which they are listed. -/
inductive Role
  | superAdmin
  | admin
  | moderator
  | trustedUser
deriving DecidableEq, Repr, Inhabited

namespace Role

/-- All roles, in their order. -/
def all : List Role :=
  [.superAdmin, .admin, .moderator, .trustedUser]

/-- Whether the role may see moderated content. -/
def isModerator : Role → Bool
  | .superAdmin => true
  | .admin => true
  | .moderator => true
  | .trustedUser => false

/-- The name of a role in a viewer's text. -/
def name : Role → String
  | .superAdmin => "super_admin"
  | .admin => "admin"
  | .moderator => "moderator"
  | .trustedUser => "trusted"

end Role

/-- A set of roles, given by the answer for each role. -/
structure Roles where
  superAdmin : Bool := false
  admin : Bool := false
  moderator : Bool := false
  trustedUser : Bool := false
deriving DecidableEq, Repr, Inhabited

namespace Roles

/-- The set without roles. -/
def empty : Roles := {}

/-- Whether a role belongs to the set. -/
def contains (roles : Roles) : Role → Bool
  | .superAdmin => roles.superAdmin
  | .admin => roles.admin
  | .moderator => roles.moderator
  | .trustedUser => roles.trustedUser

/-- The set with one more role. -/
def insert (roles : Roles) : Role → Roles
  | .superAdmin => { roles with superAdmin := true }
  | .admin => { roles with admin := true }
  | .moderator => { roles with moderator := true }
  | .trustedUser => { roles with trustedUser := true }

@[simp]
theorem contains_insert (roles : Roles) (added role : Role) :
    (roles.insert added).contains role = (role == added || roles.contains role) := by
  cases added <;> cases role <;> simp [insert, contains]

/-- The set of the roles in a list. -/
def ofList (list : List Role) : Roles :=
  list.foldl insert empty

/-- The roles of the set in their order. -/
def toList (roles : Roles) : List Role :=
  Role.all.filter roles.contains

/-- Whether some role of the set may see moderated content. -/
def anyModerator (roles : Roles) : Bool :=
  roles.toList.any Role.isModerator

end Roles

/-- Who is looking at a thread. -/
inductive Viewer
  | anonymous
  | signedIn (user : UserId) (roles : Roles)
deriving DecidableEq, Repr, Inhabited

namespace Viewer

/-- Whether the viewer is known to the site. -/
def isSignedIn : Viewer → Bool
  | .anonymous => false
  | .signedIn _ _ => true

/-- Whether the viewer may see moderated content. -/
def isModerator : Viewer → Bool
  | .anonymous => false
  | .signedIn _ roles => roles.anyModerator

/-- The viewer's user number, if the viewer is signed in. -/
def user? : Viewer → Option UserId
  | .anonymous => none
  | .signedIn user _ => some user

/-- A viewer is written as `anonymous`, or as `user`, the number and the roles,
if any, separated by colons, with commas between the roles. -/
def text : Viewer → String
  | .anonymous => "anonymous"
  | .signedIn user roles =>
      let names := roles.toList.map Role.name
      "user:" ++ user.text ++
        (if names.isEmpty then "" else ":" ++ ",".intercalate names)

end Viewer

end Discussion
