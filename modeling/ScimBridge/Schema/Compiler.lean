import ScimBridge.Mapping.Basic
import ScimBridge.Schema.Core
import ScimBridge.Schema.PropertyType

/-!
# Published schemas

The schema of users or groups is made of the core attributes, of the backend properties that are not
already covered by these, and, for users, of the mapped attributes. A mapped attribute inside
another one is added to the sub-attributes of a complex parent. The enterprise extension is made of
its mappings alone; there a parent that is missing is made up, if it stands at the top.
-/

namespace ScimBridge

/-- The kinds of managed objects that are published. -/
inductive ObjectKind where
  | user
  | group
  deriving DecidableEq, Repr

namespace ObjectKind

/-- The name of a kind in a configuration. -/
def text : ObjectKind → String
  | .user => "user"
  | .group => "group"

/-- The kind of a name. -/
def ofText? (s : String) : Option ObjectKind := [user, group].find? fun k => k.text == s

/-- The kind that a value names, which is needed here. -/
def read (v : Value) : Except UnknownWord ObjectKind :=
  match v.text?.bind ofText? with
  | some k => .ok k
  | none => .error ⟨v, "ResourceKind"⟩

end ObjectKind

namespace Schema

/-- Backend properties that the core attributes cover already, under their own or their backend
name. -/
def coveredNames : List String :=
  ["id", "userName", "name", "displayName", "emails", "phoneNumbers", "active", "password", "title",
   "preferredLanguage", "locale", "timezone", "profileUrl", "meta", "schemas", "givenName", "sn",
   "cn", "mail", "telephoneNumber", "members", "description"]

/-- Backend properties that are nobody else's business. -/
def internalNames : List String :=
  ["effectiveRoles", "effectiveAssignments", "authzRoles", "kbaInfo", "preferences"]

/-- Whether a backend property stays inside the backend. -/
def isInternal (name : String) : Bool := beginsWith "_" name || internalNames.contains name

/-- The attribute of a backend property with the given members in its definition. -/
def propertyAttribute (name : String) (definition : Fields Value) : Attribute :=
  let (type, multiValued) := (PropertyType.ofDefinition (.object definition)).published
  { name
    type
    multiValued
    required := (Value.filled? definition "required").isSome
    returned := match definition.get? "viewable" with
      | some (.bool false) => .never
      | _ => .default
    description := match definition.get? "description" with
      | some (.string s) => .string s
      | _ => .null }

/-- The attribute of one backend property, if it is published and has a definition. -/
def propertyAttribute? (p : String × Value) : Option Attribute :=
  if coveredNames.contains p.1 || isInternal p.1 then none
  else p.2.members?.map (propertyAttribute p.1)

/-- The attributes of a property map. -/
def propertyAttributes (properties : Fields Value) : List Attribute :=
  properties.filterMap propertyAttribute?

/-- Whether there is an attribute of a name. -/
def named (name : String) (attributes : List Attribute) : Bool :=
  attributes.any fun a => a.name == name

/-- Add the attribute of a mapping that is not nested, unless its path is taken. -/
def addTop (attributes : List Attribute) (m : Mapping) : List Attribute :=
  if named m.path attributes then attributes else attributes ++ [m.definition]

/-- A complex attribute with one more sub-attribute; other attributes, and those that have a
sub-attribute of the name, stay as they are. -/
def extendParent (m : Mapping) (parent : Attribute) : Attribute :=
  if parent.type = .complex ∧ (parent.sub? m.leafName).isNone then
    { parent with subAttributes := parent.subAttributes ++ [m.definition] }
  else parent

/-- Change the first attribute of a name. -/
def modifyNamed (name : String) (f : Attribute → Attribute) : List Attribute → List Attribute
  | [] => []
  | a :: rest => if a.name = name then f a :: rest else a :: modifyNamed name f rest

/-- The parent that is made up for a nested mapping. -/
def madeUpParent (name : String) (m : Mapping) : Attribute :=
  { name
    type := .complex
    description := .string ("Complex attribute for mapped " ++ name ++ " sub-attributes")
    subAttributes := [m.definition] }

/-- Add the attribute of a nested mapping below its parent. -/
def addNested (makeParents : Bool) (attributes : List Attribute) (m : Mapping) : List Attribute :=
  match m.parentPath? with
  | none => attributes
  | some parent =>
    if named parent attributes then modifyNamed parent (extendParent m) attributes
    else if makeParents && !parent.toList.contains '.' then
      attributes ++ [madeUpParent parent m]
    else attributes

/-- Add mapped attributes, those at the top before the nested ones. -/
def addMappings (makeParents : Bool) (attributes : List Attribute) (ms : List Mapping) :
    List Attribute :=
  let tops := (ms.filter fun m => !m.isNested).foldl addTop attributes
  (ms.filter Mapping.isNested).foldl (addNested makeParents) tops

/-- The attributes of a published schema. -/
def attributes (kind : ObjectKind) (properties : Option (Fields Value)) (c : MappingConfig) :
    List Attribute :=
  let found := propertyAttributes (properties.getD [])
  match kind with
  | .user => addMappings false (coreUser ++ found) c.coreUser
  | .group => coreGroup ++ found

/-- The published schema of users or groups. -/
def compile (kind : ObjectKind) (properties : Option (Fields Value)) (c : MappingConfig) :
    Except DuplicateAttribute SchemaDocument :=
  let (id, name, description) := match kind with
    | .user => (Urn.coreUser, "User", "User Account")
    | .group => (Urn.coreGroup, "Group", "Group")
  SchemaDocument.ofAttributes id (.string name) (.string description) (attributes kind properties c)

/-- The published enterprise extension, unless it would be empty. -/
def compileExtension (c : MappingConfig) : Except DuplicateAttribute (Option SchemaDocument) :=
  match addMappings true [] c.enterprise with
  | [] => .ok none
  | attributes =>
    (SchemaDocument.ofAttributes Urn.enterpriseUser (.string "EnterpriseUser")
      (.string "Enterprise User Extension") attributes).map some

/-- The property maps of users and of groups. -/
structure Properties where
  user : Option (Fields Value) := none
  group : Option (Fields Value) := none

/-- All published schemas by the names of their resource types. -/
def compileAll (properties : Properties) (c : MappingConfig) :
    Except DuplicateAttribute (Fields SchemaDocument) := do
  let user ← compile .user properties.user c
  let extension? ← compileExtension c
  let group ← compile .group properties.group c
  return ("User", user) :: (extension?.toList.map fun d => ("EnterpriseUser", d))
    ++ [("Group", group)]

end Schema

end ScimBridge
