import ScimBridge.Service.Resources

/-!
# Calls by the name of a resource type

A call names the type of its resources. A type that the service does not know is noticed only where
it is looked up, so what is wrong with the request itself is refused before.
-/

namespace ScimBridge

namespace Service

/-- What is asked of the resources of a type. -/
inductive Call where
  | list (query : Fields Value)
  | get (id : String)
  | create (resource : Value)
  | replace (id : String) (resource : Value) (revision : Option Value)
  | patch (id : String) (request : Value) (revision : Option Value)
  | delete (id : String) (revision : Option Value)
  | translate (filter : Value)

/-- A filter that is no text is refused whatever it is for. -/
def checkFilter (filter : Value) : Outcome Unit :=
  match filter with
  | .null | .string _ => .ok ()
  | _ => refuse 400 "filter must be a string" (some "invalidFilter")

/-- A whole resource that is no object is refused whatever it is for. -/
def checkBody (resource : Value) : Outcome Unit :=
  match resource with
  | .object _ => .ok ()
  | _ => refuse 400 "Request body must be a JSON object" (some "invalidSyntax")

/-- What can be said against a call without its type. -/
def Call.check : Call → Outcome Unit
  | .list query => do
    let _ ← Paging.Page.ofQuery query
    checkFilter ((query.get? "filter").getD .null)
  | .create resource => checkBody resource
  | .replace _ resource _ => checkBody resource
  | .translate filter => checkFilter filter
  | _ => .ok ()

/-- Answer a call for resources of a kind. -/
def Setup.answer (s : Setup) (kind : Kind) (caller : Caller) : Call → Operation Value
  | .list query => s.list kind query caller
  | .get id => s.get kind id caller
  | .create resource => s.create kind resource caller
  | .replace id resource revision => s.replace kind id resource revision caller
  | .patch id request revision => s.patch kind id request revision caller
  | .delete id revision => do
    s.delete kind id revision caller
    return .null
  | .translate filter => Value.string <$> settle (s.translateFilter kind filter)

/-- Answer a call for resources of a type by its name. -/
def Setup.perform (s : Setup) (type : String) (caller : Caller) (call : Call) : Operation Value :=
  match Kind.ofText? type with
  | some kind => s.answer kind caller call
  | none => do
    settle call.check
    throw .misfit

end Service

end ScimBridge
