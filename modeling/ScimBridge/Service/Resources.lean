import ScimBridge.Backend.Objects
import ScimBridge.Patch.Converter
import ScimBridge.Schema.Cache
import ScimBridge.Service.Paging

/-!
# Users and groups

Each operation checks the request before the backend is asked. Filters and patches are put into the
backend's terms, its objects are answered as resources, and its errors as errors of the service.
-/

namespace ScimBridge

namespace Service

/-- The resources that the service knows. -/
inductive Kind where
  | user
  | group
  deriving DecidableEq, Repr

namespace Kind

/-- The name of a kind. -/
def text : Kind → String
  | .user => "User"
  | .group => "Group"

/-- The resource type of a kind. -/
def type : Kind → ResourceType
  | .user => .user
  | .group => .group

/-- The core schema of a kind. -/
def schema : Kind → String
  | .user => Urn.coreUser
  | .group => Urn.coreGroup

/-- The attribute that every resource of a kind has. -/
def required : Kind → String
  | .user => "userName"
  | .group => "displayName"

/-- Both kinds. -/
def all : List Kind := [user, group]

/-- The kind of a name. -/
def ofText? (s : String) : Option Kind := all.find? fun k => k.text == s

end Kind

/-- What the service depends on. -/
structure Setup where
  collections : Collections
  config : MappingConfig

/-- The setup for configured objects, each kind of which is needed. -/
def Setup.of? (objects : Schema.ManagedObjects) (config : MappingConfig) : Option Setup := do
  let user ← Schema.objectOf? objects .user
  let role ← Schema.objectOf? objects .group
  return ⟨⟨user, role⟩, config⟩

/-- The backend's collection of a kind. -/
def Setup.object (s : Setup) : Kind → String
  | .user => s.collections.user
  | .group => s.collections.role

/-- The paths of a kind. -/
def Setup.table (s : Setup) (kind : Kind) : Filter.PathTable :=
  Filter.PathTable.ofType kind.type s.config

/-- The patch converter of a kind. -/
def Setup.converter (s : Setup) (kind : Kind) : Patch.Converter :=
  .ofTable kind.type (s.table kind) s.collections s.config

/-- A caller: the bearer token, and the address under which resources are answered. -/
structure Caller where
  token : Option String
  baseUrl : String

/-- The result of an operation or why there is none. -/
abbrev Outcome (α : Type) := Except ServiceError α

/-- A refusal. -/
def refuse {α : Type} (status : Int) (detail : String) (scimType : Option String := none) :
    Outcome α :=
  .error (.scim ⟨status, detail, scimType⟩)

/-- The backend filter for a filter of a query. -/
def Setup.translateFilter (s : Setup) (kind : Kind) (filter : Value) : Outcome String :=
  let refuseFilter (e : FilterError) : ServiceError :=
    .scim ⟨400, "Invalid filter: " ++ e.reason ++ " near '" ++ e.fragment ++ "'",
      some "invalidFilter"⟩
  match filter with
  | .null => (Filter.translate (s.table kind) none).mapError refuseFilter
  | .string text => (Filter.translate (s.table kind) (some text)).mapError refuseFilter
  | _ => refuse 400 "filter must be a string" (some "invalidFilter")

/-- The resource of a backend object. -/
def Setup.resourceOf (s : Setup) (kind : Kind) (baseUrl : String) (object : Value) :
    Outcome Value :=
  match object with
  | .object members =>
    let resource := match kind with
      | .user => User.ofBackend baseUrl s.config members
      | .group => Group.ofBackend baseUrl members
    match resource with
    | .ok resource => .ok (.object resource)
    | .error .misfit => .error .misfit
  | _ => .error .misfit

/-- Whether a resource names a schema. -/
def namesSchema (resource : Fields Value) (schema : String) : Bool :=
  match resource.get? "schemas" with
  | some (.array items) => items.any fun v => v.text? == some schema
  | _ => false

/-- Whether a resource has a text that is not blank under a name. -/
def hasText (resource : Fields Value) (name : String) : Bool :=
  match resource.get? name with
  | some (.string s) => !allBlank s.toList
  | _ => false

/-- The backend attributes of a whole resource, which is checked first. -/
def Setup.attributesOf (s : Setup) (kind : Kind) (resource : Value) : Outcome (Fields Value) :=
  match resource with
  | .object members =>
    if !namesSchema members kind.schema then
      refuse 400 ("schemas must include " ++ kind.schema) (some "invalidSyntax")
    else if !hasText members kind.required then
      refuse 400 (kind.required ++ " is required") (some "invalidValue")
    else match kind with
      | .user => .ok (User.toBackend s.config members)
      | .group => .ok (Group.toBackend s.collections members)
  | _ => refuse 400 "Request body must be a JSON object" (some "invalidSyntax")

/-- The backend operations of a patch request. -/
def Setup.patchOperations (s : Setup) (kind : Kind) (request : Value) :
    Outcome (List Patch.Operation) :=
  match (s.converter kind).convert request with
  | .ok operations => .ok operations
  | .error fault => refuse 400 fault.detail (some fault.scimType)

/-- The refusal for an error of the backend. -/
def ofBackendError (action missing : String) : BackendError → ServiceError
  | .api status _ _ => .scim (.ofBackendStatus status action)
  | .missing _ _ => .scim ⟨404, missing, none⟩
  | .token _ | .unreadable _ | .misfit => .misfit

/-- An operation of the service: requests may be sent, the client may change. -/
abbrev Operation := ExceptT ServiceError (StateT Backend.Client Backend.Exchange)

/-- Ask the backend. -/
def ask {α : Type} (action missing : String) (request : Backend.Action α) : Operation α :=
  ExceptT.mk do
    match ← request.run with
    | .ok a => return .ok a
    | .error e => return .error (ofBackendError action missing e)

/-- The wording of a resource that does not exist. -/
def missingText (kind : Kind) (id : String) : String := kind.text ++ " " ++ id ++ " not found"

/-- The objects of a page. -/
def objectsOf (results : Value) : Outcome (List Value) :=
  match results with
  | .array items => .ok items
  | _ => .error .misfit

/-- Go on with an outcome. -/
def settle {α : Type} (x : Outcome α) : Operation α := ExceptT.mk (pure x)

/-- List resources. -/
def Setup.list (s : Setup) (kind : Kind) (query : Fields Value) (caller : Caller) :
    Operation Value := do
  let page ← settle (Paging.Page.ofQuery query)
  let filter ← settle (s.translateFilter kind ((query.get? "filter").getD .null))
  let found ← ask ("Failed to list " ++ kind.text ++ "s") ""
    (Backend.Objects.query (s.object kind)
      { filter := .string filter, start := .int page.start, count := .int page.count } caller.token)
  let objects ← settle (objectsOf found.results)
  let resources ← settle (objects.mapM (s.resourceOf kind caller.baseUrl))
  return Paging.listMessage resources found.total page.start

/-- Read a resource. -/
def Setup.get (s : Setup) (kind : Kind) (id : String) (caller : Caller) : Operation Value := do
  let object ← ask ("Failed to get " ++ kind.text) (missingText kind id)
    (Backend.Objects.read (s.object kind) id none caller.token)
  settle (s.resourceOf kind caller.baseUrl object)

/-- Create a resource. -/
def Setup.create (s : Setup) (kind : Kind) (resource : Value) (caller : Caller) :
    Operation Value := do
  let attributes ← settle (s.attributesOf kind resource)
  let object ← ask ("Failed to create " ++ kind.text) ""
    (Backend.Objects.create (s.object kind) (.object attributes) caller.token)
  settle (s.resourceOf kind caller.baseUrl (.object object))

/-- Replace a resource. -/
def Setup.replace (s : Setup) (kind : Kind) (id : String) (resource : Value)
    (revision : Option Value) (caller : Caller) : Operation Value := do
  let attributes ← settle (s.attributesOf kind resource)
  let object ← ask ("Failed to replace " ++ kind.text) (missingText kind id)
    (Backend.Objects.replace (s.object kind) id (.object attributes) revision caller.token)
  settle (s.resourceOf kind caller.baseUrl object)

/-- Patch a resource; a request that changes nothing reads it. -/
def Setup.patch (s : Setup) (kind : Kind) (id : String) (request : Value) (revision : Option Value)
    (caller : Caller) : Operation Value := do
  let operations ← settle (s.patchOperations kind request)
  if operations.isEmpty then s.get kind id caller
  else
    let object ← ask ("Failed to patch " ++ kind.text) (missingText kind id)
      (Backend.Objects.patch (s.object kind) id
        (.array (operations.map Patch.Operation.toValue)) revision caller.token)
    settle (s.resourceOf kind caller.baseUrl object)

/-- Delete a resource. -/
def Setup.delete (s : Setup) (kind : Kind) (id : String) (revision : Option Value)
    (caller : Caller) : Operation Unit :=
  ask ("Failed to delete " ++ kind.text) (missingText kind id)
    (Backend.Objects.delete (s.object kind) id revision caller.token)

end Service

end ScimBridge
