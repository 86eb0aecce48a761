import ScimBridge.Backend.Error
import ScimBridge.Schema.Names

/-!
# Errors of the service

A refused request has a status, an explanation and perhaps a class. Errors of the backend are passed
on by their status alone: what the backend wrote stays inside.
-/

namespace ScimBridge

/-- A refused request. -/
structure ScimError where
  status : Int
  detail : String
  scimType : Option String := none
  deriving DecidableEq, Repr

/-- The error message of a refused request. -/
def ScimError.toValue (e : ScimError) : Value :=
  .object ([("schemas", .texts [Urn.error]), ("status", .string (toString e.status)),
    ("detail", .string e.detail)]
    ++ e.scimType.toList.map fun t => ("scimType", .string t))

namespace ScimError

/-- The error for a status of the backend that an action met: an object that is not there stays so,
a conflict is one of uniqueness, other faults of the request keep their status, and all else is a
fault of the backend. -/
def ofBackendStatus (status : Int) (action : String) : ScimError :=
  if status = 404 then ⟨404, action ++ ": resource not found", none⟩
  else if status = 409 then ⟨409, action ++ ": resource already exists", some "uniqueness"⟩
  else if 400 ≤ status ∧ status < 500 then
    ⟨status, action ++ ": IDM rejected the request (" ++ toString status ++ ")", none⟩
  else
    let said := if status = 0 then "no response" else toString status
    ⟨502, action ++ ": IDM backend error (" ++ said ++ ")", none⟩

end ScimError

/-- Why the service gave no result. -/
inductive ServiceError where
  | scim (e : ScimError)
  | misfit
  deriving DecidableEq, Repr

end ScimBridge
