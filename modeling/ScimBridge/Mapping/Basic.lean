import ScimBridge.Schema.Attribute
import ScimBridge.Schema.Names

/-!
# Custom attribute mappings

A deployment may tie further attributes of the core user schema or of the enterprise extension to
backend attributes. A dotted path leads through objects. A configuration keeps the complete mappings
in the order in which they were written; where several mappings share a path, the first one answers
for it.
-/

namespace ScimBridge

/-- One attribute that is kept in one backend attribute. -/
structure Mapping where
  path : String
  schema : String
  backendAttribute : String
  type : AttributeType := .string
  multiValued : Bool := false
  required : Bool := false
  caseExact : Bool := false
  mutability : Mutability := .readWrite
  returned : Returned := .default
  uniqueness : Uniqueness := .none
  description : Value := .null
  referenceTypes : List Value := []
  canonicalValues : List Value := []

namespace Mapping

/-- A mapping that lacks its path, its schema or its backend attribute is of no use. -/
def isComplete (m : Mapping) : Bool :=
  m.path != "" && m.schema != "" && m.backendAttribute != ""

/-- What the name of an enterprise extension contains. -/
def enterpriseMark : String := "extension:enterprise:2.0:User"

/-- Whether the attribute belongs to the enterprise extension. -/
def isEnterprise (m : Mapping) : Bool := occursIn enterpriseMark.toList m.schema.toList

/-- Whether the attribute belongs to the core user schema. -/
def isCoreUser (m : Mapping) : Bool := m.schema == Urn.coreUser

/-- The names on the way to the attribute. -/
def segments (m : Mapping) : List String := cutText '.' m.path

/-- Whether the attribute lies inside another one. -/
def isNested (m : Mapping) : Bool := m.path.toList.contains '.'

/-- The path of the attribute around this one. -/
def parentPath? (m : Mapping) : Option String :=
  if m.isNested then
    some (String.ofList (joinWith '.' (cutAt '.' m.path.toList).dropLast))
  else none

/-- The last name of the path. -/
def leafName (m : Mapping) : String :=
  String.ofList ((cutAt '.' m.path.toList).getLast (cutAt_ne_nil _ _))

/-- The path with the name of its extension in front, where it belongs to one. -/
def qualifiedPath (m : Mapping) : String :=
  if m.isEnterprise then m.schema ++ ":" ++ m.path else m.path

/-- The definition that a schema publishes for the last name of the path. -/
def definition (m : Mapping) : Attribute where
  name := m.leafName
  type := m.type
  multiValued := m.multiValued
  required := m.required
  caseExact := m.caseExact
  mutability := m.mutability
  returned := m.returned
  uniqueness := m.uniqueness
  description :=
    if m.description.filled then m.description
    else .string ("Custom mapped attribute from IDM: " ++ m.backendAttribute)
  referenceTypes := m.referenceTypes
  canonicalValues := m.canonicalValues

end Mapping

/-- The mappings of a deployment, all of them complete. -/
structure MappingConfig where
  mappings : List Mapping
  complete : ∀ m ∈ mappings, m.isComplete = true

namespace MappingConfig

/-- No mappings. -/
def empty : MappingConfig := ⟨[], by simp⟩

instance : Inhabited MappingConfig := ⟨empty⟩

/-- The complete ones among some mappings. -/
def ofMappings (ms : List Mapping) : MappingConfig :=
  ⟨ms.filter Mapping.isComplete, fun _ h => (List.mem_filter.1 h).2⟩

/-- How many mappings there are. -/
def size (c : MappingConfig) : Nat := c.mappings.length

/-- The mappings of the enterprise extension. -/
def enterprise (c : MappingConfig) : List Mapping := c.mappings.filter Mapping.isEnterprise

/-- The mappings of the core user schema. -/
def coreUser (c : MappingConfig) : List Mapping := c.mappings.filter Mapping.isCoreUser

/-- Whether the enterprise extension is in use. -/
def hasEnterprise (c : MappingConfig) : Bool := c.mappings.any Mapping.isEnterprise

/-- The first mapping of a path, in either spelling. -/
def byPath? (c : MappingConfig) (path : String) : Option Mapping :=
  c.mappings.find? fun m => path == m.path || path == m.qualifiedPath

end MappingConfig

end ScimBridge
