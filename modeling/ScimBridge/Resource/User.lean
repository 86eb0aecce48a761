import ScimBridge.Mapping.Basic
import ScimBridge.Resource.Common
import ScimBridge.Resource.Draft

/-!
# Users

A backend user becomes a user resource and back. Names, contacts and the account status have their
own shape on each side; the other core attributes are passed through; mapped attributes follow their
paths, those of the enterprise extension inside its own object.
-/

namespace ScimBridge

namespace User

/-- Core attributes that the backend keeps under the same name. -/
def passedThrough : List String :=
  ["nickName", "userType", "title", "preferredLanguage", "locale", "timezone", "profileUrl"]

/-- Backend names of the parts of a name, with their names in a resource. -/
def nameParts : List (String × String) :=
  [("givenName", "givenName"), ("sn", "familyName"), ("cn", "formatted"),
   ("middleName", "middleName")]

/-- Multi-valued contacts, with the backend name of their primary value. -/
def contacts : List (String × String) :=
  [("emails", "mail"), ("phoneNumbers", "telephoneNumber")]

/-- The members for attributes that the backend has, by their backend names and their own. -/
def placed (present? : Fields Value → String → Option Value) (object : Fields Value)
    (names : List (String × String)) : Fields Draft :=
  names.filterMap fun (backendName, name) =>
    (present? object backendName).map fun v => (name, Draft.place backendName v)

/-- A contact of one value, which is the primary one. -/
def contactOf (d : Draft) : Draft :=
  .list [.object
    [("value", d), ("primary", .value (.bool true)), ("type", .value (.string "work"))]]

/-- The status of an account: active iff the backend says so in any case. -/
def isActive (status : Value) : Bool :=
  status.filled && lowered status.shown == "active"

/-- The core attributes of a user but for identifier, schemas and metadata. -/
def coreMembers (object : Fields Value) : Fields Draft :=
  let same (names : List String) := placed Value.given? object (names.map fun n => (n, n))
  let status : Fields Draft := match object.get? "accountStatus" with
    | some v => [("active", .value (.bool (isActive v)))]
    | none => []
  let parts := placed Value.filled? object nameParts
  let name : Fields Draft := if parts.isEmpty then [] else [("name", .object parts)]
  let reached := (placed Value.filled? object (contacts.map Prod.swap)).map fun p =>
    (p.1, contactOf p.2)
  same ["userName", "displayName"] ++ status ++ name ++ reached ++ same passedThrough

/-- Write one mapped attribute into a resource, if the backend has a value for it; those of the
enterprise extension go into its own object. -/
def writeMapped (object : Fields Value) (m : Making) (mapping : Mapping) : Making :=
  match Value.given? object mapping.backendAttribute with
  | none => m
  | some v =>
    let names := Resource.segments mapping.path
    m.write (if mapping.isEnterprise then Urn.enterpriseUser :: names else names)
      (Draft.place mapping.backendAttribute v)

/-- Whether the backend has a value for an attribute of the enterprise extension. -/
def usesEnterprise (c : MappingConfig) (object : Fields Value) : Bool :=
  c.mappings.any fun m => m.isEnterprise && (Value.given? object m.backendAttribute).isSome

/-- The schemas of a user. -/
def schemasOf (c : MappingConfig) (object : Fields Value) : Value :=
  .texts (Urn.coreUser :: if usesEnterprise c object then [Urn.enterpriseUser] else [])

/-- The identifier of a backend user. -/
def identifierOf (object : Fields Value) : Draft :=
  ((object.get? "_id").map (Draft.place "_id")).getD (.value (.string ""))

/-- A resource with its core attributes. Schemas and identifier stand first. -/
def begun (c : MappingConfig) (object : Fields Value) : Making where
  shared := Making.sharedOf object
  resource := ("schemas", .value (schemasOf c object)) :: ("id", identifierOf object)
    :: coreMembers object

/-- The metadata that the backend keeps, as far as it is copied, when everything else is written. -/
def stamps (m : Making) : Shaped (Fields Value) :=
  let kept := (m.shared.get? "_meta").getD []
  (kept.filter fun p => Resource.stampNames.contains p.1).mapM fun (name, d) =>
    return (name, ← m.value d)

/-- The user resource of a backend user, under a base address. Schemas and identifier give way to
mapped attributes of these names; the metadata is written last. There is no resource where an object
would lie inside itself. -/
def ofBackend (baseUrl : String) (c : MappingConfig) (object : Fields Value) :
    Shaped (Fields Value) := do
  let m := c.mappings.foldl (writeMapped object) (begun c object)
  let location := dropEnd '/' baseUrl ++ "/Users/" ++ m.text (identifierOf object)
  let version := (Value.given? object "_rev").map fun v => m.text (.place "_rev" v)
  return (← m.finished).put "meta" (Resource.metadata "User" location version (← stamps m))

/-- The value of the primary entry of a contact, or of the first entry; an entry may be the value
itself. -/
def primaryValue (entries : Value) : Value :=
  let items := match entries with
    | .object members => [Value.object members]
    | .array items => items
    | _ => []
  match items with
  | [] => .null
  | first :: _ =>
    let isPrimary (v : Value) : Bool := (v.get? "primary").any Resource.asTruth
    match (items.find? isPrimary).getD first with
    | .object members => (Fields.get? members "value").getD .null
    | v => v

/-- The account status of a truth value. -/
def statusWord (active : Bool) : Value := .string (if active then "active" else "inactive")

/-- The status that a resource gives. -/
def putStatus (resource : Fields Value) (target : Fields Value) : Fields Value :=
  match Value.given? resource "active" with
  | some v => target.put "accountStatus" (statusWord (Resource.asTruth v))
  | none => target

/-- The parts of the name that a resource gives. -/
def putName (resource : Fields Value) (target : Fields Value) : Fields Value :=
  match resource.get? "name" with
  | some (.object parts) =>
    nameParts.foldl (fun acc p => Resource.copyGiven parts p.2 p.1 acc) target
  | _ => target

/-- The primary values of the contacts that a resource gives. -/
def putContacts (resource : Fields Value) (target : Fields Value) : Fields Value :=
  contacts.foldl (fun acc p =>
    match primaryValue ((resource.get? p.1).getD .null) with
    | .null => acc
    | v => acc.put p.2 v) target

/-- The attributes that are passed through, unless a mapping answers for their path. -/
def putPassed (c : MappingConfig) (resource : Fields Value) (target : Fields Value) :
    Fields Value :=
  passedThrough.foldl (fun acc name =>
    if (c.byPath? name).isSome then acc else Resource.copyGiven resource name name acc) target

/-- One mapped attribute that a resource gives. -/
def putMapped (resource : Fields Value) (target : Fields Value) (m : Mapping) : Fields Value :=
  let source := if m.isEnterprise then (resource.get? Urn.enterpriseUser).getD .null
    else .object resource
  match Resource.read source m.path with
  | .null => target
  | v => target.put m.backendAttribute v

/-- The backend attributes of a user resource, or of a part of one: only what is given is written.
-/
def toBackend (c : MappingConfig) (resource : Fields Value) : Fields Value :=
  let plain := ["userName", "displayName", "password"].foldl
    (fun acc name => Resource.copyGiven resource name name acc) []
  let core := putContacts resource (putName resource (putStatus resource plain))
  c.mappings.foldl (putMapped resource) (putPassed c resource core)

end User

end ScimBridge
