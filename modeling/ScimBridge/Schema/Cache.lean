import ScimBridge.Backend.Error
import ScimBridge.Schema.Compiler

/-!
# The cache of published schemas

Readers see the latest snapshot. A rebuild loads the property definitions of every configured object
from a source, in order, and publishes a new snapshot only if each of them could be loaded;
otherwise the snapshot stays and the first object that failed is named.
-/

namespace ScimBridge

namespace Schema

/-- The schemas at one time: by identifier, and their attributes by the name of the resource type.
-/
structure Snapshot where
  documents : Fields SchemaDocument := []
  attributes : Fields (List Attribute) := []
  initialized : Bool := false

/-- Two schemas of one identifier. -/
structure DuplicateSchema where
  id : String
  deriving DecidableEq, Repr

/-- The wording of a duplicate. -/
def DuplicateSchema.message (e : DuplicateSchema) : String := "Duplicate schema URN " ++ e.id

namespace Snapshot

/-- The snapshot of schemas by the names of their resource types. -/
def build (documents : Fields SchemaDocument) : Except DuplicateSchema Snapshot :=
  match firstRepeated? [] (documents.map fun p => p.2.id) with
  | some id => .error ⟨id⟩
  | none => .ok
    { documents := documents.map fun p => (p.2.id, p.2)
      attributes := documents.map fun p => (p.1, p.2.attributes)
      initialized := true }

/-- The identifiers in order. -/
def ids (s : Snapshot) : List String := s.documents.keys

/-- The schema of an identifier. -/
def get? (s : Snapshot) (id : String) : Option SchemaDocument := s.documents.get? id

/-- All schemas in order. -/
def list (s : Snapshot) : List SchemaDocument := s.documents.map Prod.snd

/-- Whether there is a schema of an identifier. -/
def has (s : Snapshot) (id : String) : Bool := s.documents.has id

/-- The attributes of a resource type; none for one that is not known. -/
def attributesOf (s : Snapshot) (resourceType : String) : List Attribute :=
  (s.attributes.get? resourceType).getD []

/-- Whether the enterprise extension is published. -/
def hasEnterprise (s : Snapshot) : Bool := s.has Urn.enterpriseUser

end Snapshot

/-- Why an object could not be loaded: the backend failed, the source failed with a text of its own,
or a saved document is no object or holds something in place of its list of objects. -/
inductive LoadFault where
  | backend (e : BackendError)
  | failure (text : String)
  | notAList (type : String)
  | notAnObject (type : String)

/-- The wording of a fault. -/
def LoadFault.text : LoadFault → String
  | .backend e => e.message
  | .failure text => text
  | .notAList type => "'" ++ type ++ "' object is not iterable"
  | .notAnObject type => "'" ++ type ++ "' object has no attribute 'get'"

/-- A rebuild that was given up. -/
inductive RebuildError where
  | load (object : String) (fault : LoadFault)
  | duplicateAttribute (e : DuplicateAttribute)
  | duplicateSchema (e : DuplicateSchema)

/-- The wording of an object that could not be loaded. -/
def LoadFault.message (object : String) (fault : LoadFault) : String :=
  "Failed to load managed object '" ++ object ++ "': " ++ fault.text

/-- The configured objects by kind, in the order in which they are loaded. -/
abbrev ManagedObjects := List (ObjectKind × String)

/-- The objects of a deployment that does not say otherwise. -/
def usualObjects : ManagedObjects := [(.user, "alpha_user"), (.group, "alpha_role")]

/-- Configured objects: a kind that is named twice keeps its first place and its last name, and an
empty configuration stands for the usual one. -/
def managedObjects (pairs : ManagedObjects) : ManagedObjects :=
  let put (acc : ManagedObjects) (p : ObjectKind × String) : ManagedObjects :=
    if acc.any fun q => q.1 == p.1 then acc.map fun q => if q.1 == p.1 then (q.1, p.2) else q
    else acc ++ [p]
  match pairs.foldl put [] with
  | [] => usualObjects
  | objects => objects

/-- The object of a kind. -/
def objectOf? (objects : ManagedObjects) (kind : ObjectKind) : Option String :=
  (objects.find? fun p => p.1 == kind).map Prod.snd

/-- Keep the property definitions of an object. -/
def Properties.put (p : Properties) (kind : ObjectKind) (found : Option (Fields Value)) :
    Properties :=
  match kind with
  | .user => { p with user := found }
  | .group => { p with group := found }

section

variable {m : Type → Type} [Monad m]

/-- A source of property definitions, by the names of objects. -/
abbrev Source (m : Type → Type) := String → m (Except LoadFault (Option (Fields Value)))

/-- Load the property definitions of some objects, up to the first that fails. -/
def loadAll (source : Source m) : ManagedObjects → Properties →
    m (Except RebuildError Properties)
  | [], found => pure (.ok found)
  | (kind, object) :: rest, found => do
    match ← source object with
    | .error fault => return .error (.load object fault)
    | .ok properties => loadAll source rest (found.put kind properties)

/-- The snapshot of property definitions and mappings. -/
def snapshotOf (properties : Properties) (config : MappingConfig) :
    Except RebuildError Snapshot :=
  match compileAll properties config with
  | .error e => .error (.duplicateAttribute e)
  | .ok documents => (Snapshot.build documents).mapError .duplicateSchema

/-- The cache: what it is built from, and the current snapshot. -/
structure Cache where
  objects : ManagedObjects
  config : MappingConfig
  snapshot : Snapshot := {}

/-- Load everything and make a snapshot of it. -/
def Cache.load (source : Source m) (c : Cache) : m (Except RebuildError Snapshot) := do
  match ← loadAll source c.objects {} with
  | .error e => return .error e
  | .ok properties => return snapshotOf properties c.config

/-- Rebuild: publish a new snapshot, or report why there is none and keep the old one. -/
def Cache.rebuild (source : Source m) (c : Cache) :
    m (Except RebuildError Snapshot × Cache) := do
  match ← c.load source with
  | .error e => return (.error e, c)
  | .ok s => return (.ok s, { c with snapshot := s })

end

end Schema

end ScimBridge
