import ScimBridge.Schema.Characteristics
import ScimBridge.Text.Classes

/-!
# Types of backend properties

A property definition of the backend names its type, or lists alternatives of which `null` does not
count. Types that are not known are texts. Lists are published as multi-valued texts whatever their
items are.
-/

namespace ScimBridge

/-- The type of a backend property. -/
inductive PropertyType where
  | string
  | boolean
  | number (integral : Bool)
  | object
  | relationship
  | array (item : PropertyType)
  deriving DecidableEq, Repr

namespace PropertyType

/-- The name of a type: a text, or the first text in a list that is not `null`. -/
def typeName? : Value → Option String
  | .string s => some s
  | .array items => items.findSome? fun v => match v with
    | .string s => if s = "null" then none else some s
    | _ => none
  | _ => none

/-- The type name of a definition in lower case, or nothing at all. -/
def declaredName (members : Fields Value) : String :=
  lowered (((members.get? "type").bind typeName?).getD "")

/-- The type with a given name whose items, if it is a list, have the type `item`. -/
def named (name : String) (item : PropertyType) : PropertyType :=
  match name with
  | "boolean" => .boolean
  | "integer" => .number true
  | "number" => .number false
  | "object" => .object
  | "relationship" => .relationship
  | "array" => .array item
  | _ => .string

mutual
/-- The type of a property definition. -/
def ofDefinition : Value → PropertyType
  | .object members => named (declaredName members) (ofItems members)
  | .table entries => named (declaredName (Value.namedEntries entries)) (ofEntries entries)
  | _ => .string
/-- The type of the items that the members of a definition declare; the first `items` counts. -/
def ofItems : List (String × Value) → PropertyType
  | [] => .string
  | (name, v) :: rest => if name = "items" then ofDefinition v else ofItems rest
def ofEntries : List (Value × Value) → PropertyType
  | [] => .string
  | (.string name, v) :: rest => if name = "items" then ofDefinition v else ofEntries rest
  | _ :: rest => ofEntries rest
end

/-- The attribute type of a property, and whether it has many values. -/
def published : PropertyType → AttributeType × Bool
  | .string => (.string, false)
  | .boolean => (.boolean, false)
  | .number true => (.integer, false)
  | .number false => (.decimal, false)
  | .object => (.complex, false)
  | .relationship => (.reference, false)
  | .array _ => (.string, true)

end PropertyType

end ScimBridge
