import ScimBridge.Service.Error
import ScimBridge.Text.Integer

/-!
# Paging

Which resources of a list are asked for, and the list as it is answered.
-/

namespace ScimBridge

namespace Paging

/-- How many resources are answered where the request does not say. -/
def usualCount : Int := 100

/-- The most resources of one answer. -/
def maxCount : Int := 200

/-- A page: where it starts, counted from 1, and how many resources it holds at most. -/
structure Page where
  start : Int
  count : Int
  deriving DecidableEq, Repr

/-- The whole number under a name of a query, or the usual one. -/
def wholeParam (query : Fields Value) (name : String) (usual : Int) :
    Except ServiceError Int :=
  match query.get? name with
  | none => .ok usual
  | some .null => .ok usual
  | some (.string "") => .ok usual
  | some v => match v.toWhole with
    | .ok n => .ok n
    | .error .infinite => .error .misfit
    | .error _ => .error (.scim ⟨400, name ++ " must be an integer", some "invalidValue"⟩)

/-- The page that a query asks for. -/
def Page.ofQuery (query : Fields Value) : Except ServiceError Page := do
  let start ← wholeParam query "startIndex" 1
  let count ← wholeParam query "count" usualCount
  return ⟨max 1 start, min maxCount (max 0 count)⟩

/-- A list of resources as an answer. -/
def listMessage (resources : List Value) (total : Value) (start : Int) : Value :=
  .object
    [("schemas", .texts [Urn.listResponse]),
     ("totalResults", total),
     ("startIndex", .int start),
     ("itemsPerPage", .int resources.length),
     ("Resources", .array resources)]

end Paging

end ScimBridge
