import ScimBridge.Mapping.Basic

/-!
# Mapping documents

A mapping document is a list of entries, or an object that holds the list under one name. Entries
that are not objects and entries that are incomplete are passed over; a characteristic that is not
known counts as not given.
-/

namespace ScimBridge

/-- Why mappings cannot be read. -/
inductive MappingError where
  | notAList
  | malformedVariable
  | malformedFile (path : String)
  | misfit
  deriving DecidableEq, Repr

namespace Mapping

/-- The variable that holds a mapping document. -/
def documentVariable : String := "SCIM_CUSTOM_ATTRIBUTE_MAPPINGS"

/-- The variable that names a file with a mapping document. -/
def fileVariable : String := "SCIM_CUSTOM_ATTRIBUTE_MAPPINGS_FILE"

/-- The member that holds the list of entries. -/
def listName : String := "customAttributeMappings"

end Mapping

/-- The wording, up to what a document reader has to say. -/
def MappingError.message : MappingError → String
  | .notAList => Mapping.listName ++ " must be a list"
  | .malformedVariable => Mapping.documentVariable ++ " is not valid JSON"
  | .malformedFile path => "Invalid mapping file " ++ path
  | .misfit => ""

namespace Mapping

/-- The trimmed text of the first member that is filled in. -/
def textOf (entry : Fields Value) (names : List String) : Shaped String :=
  match names.findSome? (Value.filled? entry) with
  | none => .ok ""
  | some v => if v.isShowable then .ok (trimText v.shown) else .error .misfit

/-- The characteristic that a member spells, or the usual one. -/
def wordOf {α : Type} [Wording α] (entry : Fields Value) (name : String) (usual : α) : α :=
  (((Value.filled? entry name).bind Wording.ofValue?)).getD usual

/-- Whether a member is filled in. -/
def flagOf (entry : Fields Value) (name : String) : Bool := (Value.filled? entry name).isSome

/-- The items of a member that is filled in. -/
def itemsOf (entry : Fields Value) (name : String) : Shaped (List Value) :=
  match Value.filled? entry name with
  | none => .ok []
  | some v => v.asItems

/-- The mapping that an entry describes. -/
def ofEntry (entry : Fields Value) : Shaped Mapping := do
  let path ← textOf entry ["scimPath"]
  let schema ← textOf entry ["scimSchema"]
  let backendAttribute ← textOf entry ["pingIdmAttribute", "idmAttribute"]
  let referenceTypes ← itemsOf entry "referenceTypes"
  let canonicalValues ← itemsOf entry "canonicalValues"
  return {
    path, schema, backendAttribute
    type := wordOf entry "type" .string
    multiValued := flagOf entry "multiValued"
    required := flagOf entry "required"
    caseExact := flagOf entry "caseExact"
    mutability := wordOf entry "mutability" .readWrite
    returned := wordOf entry "returned" .default
    uniqueness := wordOf entry "uniqueness" .none
    description := (entry.get? "description").getD .null
    referenceTypes
    canonicalValues }

end Mapping

namespace MappingConfig

/-- The entries of a document. -/
def entries (document : Value) : Except MappingError (List Value) :=
  let inner : Value := match document, document.members? with
    | .null, _ => .array []
    | _, some members => (Fields.get? members Mapping.listName).getD (.array [])
    | v, none => v
  match inner with
  | .array items => .ok items
  | _ => .error .notAList

/-- The mappings of a document. -/
def ofDocument (document : Value) : Except MappingError MappingConfig := do
  let items ← entries document
  match (items.filterMap Value.members?).mapM Mapping.ofEntry with
  | .ok ms => return ofMappings ms
  | .error .misfit => throw .misfit

end MappingConfig

end ScimBridge
