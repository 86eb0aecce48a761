import ScimBridge.Schema.Characteristics

/-!
# Attribute definitions

One attribute of a schema with its characteristics and, where it is complex, its sub-attributes.
-/

namespace ScimBridge

/-- The definition of an attribute. -/
structure Attribute where
  name : String
  type : AttributeType := .string
  multiValued : Bool := false
  required : Bool := false
  caseExact : Bool := false
  mutability : Mutability := .readWrite
  returned : Returned := .default
  uniqueness : Uniqueness := .none
  /-- A description that is not filled in is left out of the document. -/
  description : Value := .null
  subAttributes : List Attribute := []
  referenceTypes : List Value := []
  canonicalValues : List Value := []

namespace Attribute

/-- The first sub-attribute of a name. -/
def sub? (a : Attribute) (name : String) : Option Attribute :=
  a.subAttributes.find? fun s => s.name == name

/-- A member that is left out where the list is empty. -/
def listMember (name : String) (items : List Value) : Fields Value :=
  if items.isEmpty then [] else [(name, .array items)]

mutual
def toValue : Attribute → Value
  | { name, type, multiValued, required, caseExact, mutability, returned, uniqueness, description,
      subAttributes, referenceTypes, canonicalValues } =>
    let head : Fields Value :=
      [("name", .string name), ("type", .string (Wording.text type)),
       ("multiValued", .bool multiValued)]
    let told : Fields Value := if description.filled then [("description", description)] else []
    let kept : Fields Value :=
      [("required", .bool required), ("caseExact", .bool caseExact),
       ("mutability", .string (Wording.text mutability)),
       ("returned", .string (Wording.text returned)),
       ("uniqueness", .string (Wording.text uniqueness))]
    .object (head ++ told ++ kept ++ listMember "canonicalValues" canonicalValues
      ++ listMember "referenceTypes" referenceTypes
      ++ listMember "subAttributes" (toValues subAttributes))
def toValues : List Attribute → List Value
  | [] => []
  | a :: rest => toValue a :: toValues rest
end

end Attribute

end ScimBridge
