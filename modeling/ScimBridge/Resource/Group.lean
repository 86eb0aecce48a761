import ScimBridge.Resource.Common
import ScimBridge.Schema.Names

/-!
# Groups and their members

A group is a role of the backend. Its members are references to managed objects: the last part of a
reference is the identifier, the part before it names the collection, and the members of role
collections are groups.
-/

namespace ScimBridge

/-- The collections of the backend that hold users and groups. -/
structure Collections where
  user : String := "alpha_user"
  role : String := "alpha_role"
  deriving DecidableEq, Repr

namespace Member

/-- Whether a collection holds roles. -/
def isRoleCollection (name : String) : Bool := finishesWith "_role" name

/-- Identifier of a member and whether it is a group, as far as its reference says. -/
def ofReference (ref : Option Value) : Value × Bool :=
  match ref with
  | some (.string text) =>
    match (cutText '/' text).reverse with
    | id :: collection :: _ :: _ => (.string id, isRoleCollection collection)
    | _ => (.null, false)
  | _ => (.null, false)

/-- A member of a group resource. -/
def entry (baseUrl : String) (id : Value) (isGroup : Bool) : Value :=
  .object
    [("value", id),
     ("type", .string (if isGroup then "Group" else "User")),
     ("$ref", .string
       (baseUrl ++ "/" ++ (if isGroup then "Groups" else "Users") ++ "/" ++ id.shown))]

/-- The member of a group resource that a backend entry stands for. Resolved identifiers go before
references; what has no identifier is left out. -/
def ofBackend (baseUrl : String) (member : Value) : Shaped (Option Value) :=
  match member with
  | .object fields => do
    let (referred, referredGroup) := ofReference (Fields.get? fields "_ref")
    let (id, isGroup) ←
      match Value.filled? fields "_refResourceId" with
      | none => pure (referred, referredGroup)
      | some id =>
        match Value.filled? fields "_refResourceCollection" with
        | none => pure (id, referredGroup)
        | some collection => do
          let name ← collection.asText
          pure (id, referredGroup || isRoleCollection name)
    return if id.filled then some (entry baseUrl id isGroup) else none
  | _ => .ok none

/-- The members of a group resource that the backend's list stands for. -/
def listOfBackend (baseUrl : String) (members : Value) : Shaped (List Value) :=
  match members with
  | .array items => do
    let entries ← items.mapM (ofBackend baseUrl)
    return entries.filterMap id
  | _ => .ok []

/-- The backend's reference for a member: an object with identifier and type, or an identifier of a
user on its own. -/
def reference? (collections : Collections) (member : Value) : Option String :=
  let (id, type) := match member with
    | .object fields =>
      ((Fields.get? fields "value").getD .null, (Fields.get? fields "type").getD .null)
    | v => (v, .null)
  let isGroup := type.filled && lowered type.shown == "group"
  match id with
  | .null => none
  | id =>
    if id.shown = "" then none
    else
      let collection := if isGroup then collections.role else collections.user
      some ("managed/" ++ collection ++ "/" ++ id.shown)

/-- An entry of the backend's member list. -/
def referenceEntry (ref : String) : Value := .object [("_ref", .string ref)]

/-- The backend's entries for members: a list of them, or one. -/
def toBackend (collections : Collections) (members : Value) : List Value :=
  let items := match members with
    | .array items => items
    | .object fields => [Value.object fields]
    | .string s => [Value.string s]
    | _ => []
  (items.filterMap (reference? collections)).map referenceEntry

end Member

namespace Group

/-- The group resource of a backend role, under a base address. -/
def ofBackend (baseUrl : String) (role : Fields Value) : Shaped (Fields Value) := do
  let id := Resource.identifier role
  let base := dropEnd '/' baseUrl
  let named : Fields Value := [("name", "displayName"), ("description", "description")].filterMap
    fun (backendName, name) => (Value.given? role backendName).map fun v => (name, v)
  let members ← Member.listOfBackend base ((role.get? "members").getD .null)
  let listed : Fields Value := if members.isEmpty then [] else [("members", .array members)]
  let location := base ++ "/Groups/" ++ id.shown
  let version := (Value.given? role "_rev").map Value.shown
  let stamps := ((role.get? "_meta").bind Value.members?).getD []
  return [("schemas", .texts [Urn.coreGroup]), ("id", id)] ++ named ++ listed
    ++ [("meta", Resource.metadata "Group" location version stamps)]

/-- The backend attributes of a group resource, or of a part of one: only what is given is
written. -/
def toBackend (collections : Collections) (resource : Fields Value) : Fields Value :=
  let named := [("displayName", "name"), ("description", "description")].foldl
    (fun acc p => Resource.copyGiven resource p.1 p.2 acc) []
  match resource.get? "members" with
  | some (.array items) =>
    named.put "members" (.array (Member.toBackend collections (.array items)))
  | _ => named

end Group

end ScimBridge
