import ScimBridge.Mapping.PathTable
import ScimBridge.Patch.Basic
import ScimBridge.Patch.Fault
import ScimBridge.Patch.Target
import ScimBridge.Resource.Group
import ScimBridge.Resource.User

/-!
# Converting patch requests

A request is a list of operations, each with a verb, perhaps a path and perhaps a value. A path to
be removed covers every entry of the path table at or below it. What is added or replaced is put
into a partial resource, which is converted as a whole resource is. Changes of a group's members are
changes of references.
-/

namespace ScimBridge

namespace Patch

/-- What a conversion depends on. -/
structure Converter where
  type : ResourceType
  table : Filter.PathTable
  collections : Collections
  config : MappingConfig

namespace Converter

/-- The converter of a resource type. For users, the attributes that are passed through and the
password can be named as well. -/
def ofTable (type : ResourceType) (table : Filter.PathTable) (collections : Collections)
    (config : MappingConfig) : Converter :=
  let extra := if type = .user then User.passedThrough ++ ["password"] else []
  { type, collections, config
    table := extra.foldl (fun acc name => Fields.putNew acc name name) table }

/-- Whether a table path is a path or lies below it. -/
def covers (path tablePath : String) : Bool :=
  tablePath == path || beginsWith (path ++ ".") tablePath

/-- The values of some entries without repetitions, in order. -/
def distinct (names : List String) : List String :=
  names.foldl (fun acc name => if acc.contains name then acc else acc ++ [name]) []

/-- The fields of the table entries at or below a path. -/
def fieldsBelow (table : Filter.PathTable) (path : String) : List String :=
  distinct ((table.filter fun p => covers path p.1).map Prod.snd)

/-- The spellings under which a path is looked for in the table. -/
def candidates (target : Target) : List String :=
  let plain := target.plain
  if target.schema = some Urn.enterpriseUser then
    if plain = "" then [] else [Urn.enterpriseUser ++ ":" ++ plain, plain]
  else [plain]

/-- The backend fields that a path covers. -/
def fieldsFor (c : Converter) (path : String) : Except Fault (List String) :=
  let target := Target.of path
  let whole :=
    if target.schema = some Urn.enterpriseUser ∧ target.plain = "" then
      c.config.enterprise.map (·.backendAttribute)
    else []
  let found := if whole.isEmpty then
      ((candidates target).map (fieldsBelow c.table)).find? fun fields => !fields.isEmpty
    else some whole
  match found with
  | some fields => .ok fields
  | none => .error (.unsupportedPath path)

/-- The backend attributes of a partial resource. Members are none of them. -/
def attributesOf (c : Converter) (resource : Fields Value) : Fields Value :=
  match c.type with
  | .group => (Group.toBackend c.collections resource).erase "members"
  | _ => User.toBackend c.config resource

/-- The partial resource that holds a value at a path. -/
def documentAt (verb : Verb) (path : String) (value : Value) : Except Fault (Fields Value) :=
  let target := Target.of path
  let plain := target.plain
  if plain = "" then
    match value with
    | .object members =>
      .ok (if target.schema = some Urn.enterpriseUser then [(Urn.enterpriseUser, .object members)]
        else members)
    | _ => .error (.schemaValueNotObject verb)
  else if target.schema = some Urn.enterpriseUser then
    .ok [(Urn.enterpriseUser, .object (Resource.write [] plain value))]
  else .ok (Resource.write [] plain value)

/-- One operation for each attribute. -/
def operationsOf (verb : Verb) (attributes : Fields Value) : List Operation :=
  attributes.map fun (name, v) => ⟨verb, "/" ++ name, some v⟩

/-- Add or replace the value at a path. -/
def attributeOperations (c : Converter) (verb : Verb) (path : String) (value : Value) :
    Except Fault (List Operation) := do
  let document ← documentAt verb path value
  match c.attributesOf document with
  | [] => .error (.unsupportedPath path)
  | attributes => .ok (operationsOf verb attributes)

/-- The backend's references for a value that stands for members. -/
def references (c : Converter) (value : Value) : Except Fault (List Value) :=
  match value with
  | .array _ => .ok (Member.toBackend c.collections value)
  | .object _ => .ok (Member.toBackend c.collections value)
  | .string _ => .ok (Member.toBackend c.collections value)
  | _ => .error .malformedMembers

/-- Add members one by one, or replace the whole list. -/
def memberOperations (c : Converter) (verb : Verb) (value : Value) :
    Except Fault (List Operation) := do
  let refs ← c.references value
  return match verb with
    | .add => refs.map fun ref => ⟨.add, "/members/-", some ref⟩
    | _ => [⟨.replace, "/members", some (.array refs)⟩]

/-- Remove one reference after the other. -/
def removeReferences (c : Converter) (value : Value) : Except Fault (List Operation) := do
  let refs ← c.references value
  return refs.map fun ref => ⟨.remove, "/members", some ref⟩

/-- Remove the selected member, the members that a value names, or all of them. -/
def removeMembers (c : Converter) (path : String) (value : Value) :
    Except Fault (List Operation) :=
  if path.toList.contains '[' then
    match selectedId? path.toList with
    | none => .error (.unsupportedMemberFilter path)
    | some id => c.removeReferences (.object [("value", .string (String.ofList id))])
  else match value with
    | .null => .ok [⟨.replace, "/members", some (.array [])⟩]
    | v => c.removeReferences v

/-- Add or replace the members of an object value. -/
def objectOperations (c : Converter) (verb : Verb) (members : Fields Value) :
    Except Fault (List Operation) := do
  let operations := operationsOf verb (c.attributesOf members)
  match c.type, members.get? "members" with
  | .group, some value => do
    let more ← c.memberOperations verb value
    return operations ++ more
  | _, _ => return operations

/-- Whether a path names members of a group. -/
def isMembersPath (c : Converter) (path : String) : Bool :=
  c.type == .group && (Target.of path).isMembers

/-- The backend operations of one operation of a request. The path is empty where there is none, the
value null. -/
def operations (c : Converter) (verb : Verb) (path : String) (value : Value) :
    Except Fault (List Operation) :=
  match verb with
  | .remove =>
    if path = "" then .error .removeWithoutPath
    else if c.isMembersPath path then c.removeMembers path value
    else (c.fieldsFor path).map fun fields => fields.map fun field => ⟨.remove, "/" ++ field, none⟩
  | verb =>
    match value with
    | .null => .error (.missingValue verb)
    | value =>
      if path = "" then
        match value with
        | .object members => c.objectOperations verb members
        | _ => .error (.valueNotObject verb)
      else if c.isMembersPath path then c.memberOperations verb value
      else c.attributeOperations verb path value

/-- The verb of an operation of a request. -/
def verbOf (entry : Fields Value) : Except Fault Verb :=
  let op := (entry.get? "op").getD .null
  match Verb.ofText? (lowered (if op.filled then op.shown else "")) with
  | some verb => .ok verb
  | none => .error (.unsupportedOperation op)

/-- The path of an operation of a request, without blanks around it and slashes in front. -/
def pathOf (entry : Fields Value) : Except Fault String :=
  match entry.get? "path" with
  | none => .ok ""
  | some .null => .ok ""
  | some (.string s) => .ok (dropFront '/' (trimText s))
  | some _ => .error .pathNotText

/-- The backend operations of one entry of a request. -/
def entryOperations (c : Converter) (entry : Value) : Except Fault (List Operation) :=
  match entry with
  | .object members => do
    let verb ← verbOf members
    let path ← pathOf members
    c.operations verb path ((Fields.get? members "value").getD .null)
  | _ => .error .malformedOperation

/-- The entries of a request. -/
def entriesOf (request : Value) : Except Fault (List Value) :=
  match request with
  | .object members =>
    let named := match Fields.get? members "schemas" with
      | some (.array items) => items.any fun v => v.text? == some Urn.patchOp
      | _ => false
    if named then
      match Fields.get? members "Operations" with
      | some (.array (entry :: rest)) => .ok (entry :: rest)
      | _ => .error .noOperations
    else .error .missingSchema
  | _ => .error .notAnObject

/-- The backend operations of a request, those of its entries one after the other. -/
def convert (c : Converter) (request : Value) : Except Fault (List Operation) := do
  let entries ← entriesOf request
  let converted ← entries.mapM c.entryOperations
  return converted.flatten

end Converter

end Patch

end ScimBridge
