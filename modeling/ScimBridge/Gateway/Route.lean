import ScimBridge.Gateway.Fault
import ScimBridge.Service.Resources

/-!
# Routes

What the paths of the service lead to. One path may lead to several routes: a request takes the
first that its method is made for.
-/

namespace ScimBridge

namespace Gateway

open Http (Method)

/-- What a path leads to. -/
inductive Route where
  | health
  | ready
  | schemaStatus
  | schemaRefresh
  | providerConfig
  | resourceTypes
  | resourceType (name : String)
  | schemas
  | schema (id : String)
  | collection (kind : Service.Kind)
  | search (kind : Service.Kind)
  | resource (kind : Service.Kind) (id : String)
  | asset
  deriving DecidableEq, Repr

namespace Route

/-- The methods that a route is made for. -/
def methods : Route → List Method
  | .schemaRefresh | .search _ => [.post]
  | .collection _ => [.get, .head, .post]
  | .resource _ _ => [.get, .head, .put, .patch, .delete]
  | _ => [.get, .head]

/-- The groups of methods that are made for separately. -/
def methodGroups : Route → List (List Method)
  | .collection _ => [[.get, .head], [.post]]
  | .resource _ _ => [[.get, .head], [.put], [.patch], [.delete]]
  | r => [r.methods]

/-- Whether a route belongs to the protocol of the service. -/
def isService : Route → Bool
  | .health | .ready | .schemaStatus | .schemaRefresh | .asset => false
  | _ => true

/-- Whether a route is for operators. -/
def isOperators : Route → Bool
  | .schemaStatus | .schemaRefresh => true
  | _ => false

/-- The kind of resources whose collection has a name. -/
def kindOf? (name : String) : Option Service.Kind :=
  if name = "Users" then some .user else if name = "Groups" then some .group else none

/-- Whether names can be the rest of a path: they neither begin with a slash nor go on over a line
end. -/
def isRest (names : List String) : Bool :=
  names.head? ≠ some "" && !(("/".intercalate names).toList.drop 1).contains '\n'

/-- The routes of a path below the service, by the names between its slashes. -/
def ofServiceNames : List String → List Route
  | ["ServiceProviderConfig"] => [.providerConfig]
  | ["ResourceTypes"] => [.resourceTypes]
  | ["ResourceTypes", name] => if name = "" then [] else [.resourceType name]
  | ["Schemas"] => [.schemas]
  | "Schemas" :: first :: more =>
    if isRest (first :: more) then [.schema ("/".intercalate (first :: more))] else []
  | [folder] => (kindOf? folder).toList.map .collection
  | [folder, name] =>
    match kindOf? folder with
    | none => []
    | some kind =>
      if name = "" then []
      else (if name = ".search" then [.search kind] else []) ++ [.resource kind name]
  | _ => []

/-- The routes of a path. -/
def ofPath (path : String) : List Route :=
  match (cutText '/' path).drop 1 with
  | ["health"] => [.health]
  | ["ready"] => [.ready]
  | ["admin", "schemas"] => [.schemaStatus]
  | ["admin", "schemas", "refresh"] => [.schemaRefresh]
  | "static" :: first :: more => if isRest (first :: more) then [.asset] else []
  | "scim" :: "v2" :: names => ofServiceNames names
  | _ => []

/-- The route of a request, or why there is none. -/
def find (path : String) (method : Method) : Except Denial Route :=
  let routes := ofPath path
  match routes.find? fun r => r.methods.contains method with
  | some r => .ok r
  | none => .error (if routes.isEmpty then .notFound else .methodNotAllowed)

/-- Why there is no route for a connection in both directions: no route is made for one. -/
def socketDenial (path : String) (method : Method) : Denial :=
  let groups := (ofPath path).flatMap methodGroups
  if groups.isEmpty then .notFound
  else if groups.any fun methods => !methods.contains method then .methodNotAllowed
  else .unreadable

end Route

end Gateway

end ScimBridge
