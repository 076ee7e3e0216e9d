import Discussion.Form.Identity
import Discussion.Viewer.Basic

/-!
# The data form of viewers

A viewer is a record whose field `type` says which of the other fields matter.
As an array it starts with the type.
-/

namespace Discussion

namespace Role

/-- The name of a role in data. -/
def dataName : Role → String
  | .trustedUser => "trusted_user"
  | role => role.name

/-- A role as a JSON value. -/
def toJson (role : Role) : Json :=
  .ofString role.dataName

/-- A role from a JSON value. -/
def ofJson? : Decoder Role :=
  Json.enumeration Role.all dataName

end Role

namespace Viewer

/-- The fields of a signed-in viewer besides the type. -/
def fieldNames : List String :=
  ["user_id", "roles"]

/-- A viewer as a JSON value. -/
def toJson : Viewer → Json
  | .anonymous => .ofMembers [("type", .ofString "anonymous")]
  | .signedIn user roles =>
      .ofMembers [
        ("type", .ofString "signed_in"),
        ("user_id", user.toJson),
        ("roles", .array (roles.toList.map Role.toJson))]

/-- A viewer's type and its other fields, from an object or from the array of the
type and the values of the fields. -/
def tagged? : Decoder (String × Json) := fun room value =>
  if !Json.isReadable room value then none
  else
    match value with
    | .object members =>
        match members.filter fun (key, _) => key == some "type" with
        | [(_, tag)] => do
            let tag ← Json.text room tag
            some (tag, .object (members.filter fun (key, _) => key != some "type"))
        | _ => none
    | .array (tag :: items) => do
        let tag ← Json.text room tag
        some (tag, .array items)
    | _ => none

/-- A signed-in viewer from a JSON value without the type. -/
def signedInOfJson? : Decoder Viewer := fun room value => do
  let fields ← Json.record fieldNames room value
  let user ← fields.required "user_id" UserId.ofJson?
  let roles ← fields.withDefault "roles"
    (Json.list (Json.mixedEnumeration Role.all Role.dataName)) []
  some (.signedIn user (Roles.ofList roles))

/-- A viewer from a JSON value. -/
def ofJson? : Decoder Viewer := fun room value => do
  let (tag, fields) ← tagged? room value
  if tag = "signed_in" then signedInOfJson? room fields
  else if tag = "anonymous" then
    match fields with
    | .array (_ :: _) => none
    | _ => some .anonymous
  else none

end Viewer

end Discussion
