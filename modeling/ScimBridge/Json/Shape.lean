import ScimBridge.Json.Shown

/-!
# Values of an unusable shape

Documents of backends and deployments may hold any value anywhere. Where an operation has no meaning
for a value, it stops with a shape error and says nothing more.
-/

namespace ScimBridge

/-- A value does not have the shape that an operation needs. -/
inductive ShapeError where
  | misfit
  deriving DecidableEq, Repr

/-- A result that is missing only for values of an unusable shape. -/
abbrev Shaped (α : Type) := Except ShapeError α

namespace Value

/-- The members of an object, which is needed here. -/
def asMembers : Value → Shaped (Fields Value)
  | .object members => .ok members
  | .table entries => .ok (namedEntries entries)
  | _ => .error .misfit

/-- The text of a text value, which is needed here. -/
def asText : Value → Shaped String
  | .string s => .ok s
  | _ => .error .misfit

/-- The items of a collection: those of a list, the code points of a text, the names of an
object. -/
def asItems : Value → Shaped (List Value)
  | .array items => .ok items
  | .string s => .ok ((CodePoint.points s.toList).map fun n => .string (CodePoint.textOf [n]))
  | .object members => .ok (members.map fun p => .string p.1)
  | .table entries => .ok (entries.map Prod.fst)
  | _ => .error .misfit

end Value

end ScimBridge
