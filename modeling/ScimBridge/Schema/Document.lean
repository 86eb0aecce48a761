import ScimBridge.Schema.Attribute
import ScimBridge.Schema.Names

/-!
# Schema documents

A schema has an identifier and attributes whose names differ from each other.
-/

namespace ScimBridge

/-- The first name that has occurred before. -/
def firstRepeated? : List String → List String → Option String
  | _, [] => none
  | seen, name :: rest =>
    if seen.contains name then some name else firstRepeated? (name :: seen) rest

theorem firstRepeated?_eq_none {seen names : List String}
    (h : firstRepeated? seen names = none) : names.Nodup ∧ ∀ n ∈ names, n ∉ seen := by
  induction names generalizing seen with
  | nil => simp
  | cons name rest ih =>
    unfold firstRepeated? at h
    split at h
    · cases h
    · rename_i hn
      obtain ⟨hd, hs⟩ := ih h
      have hnot : name ∉ seen := by simpa using hn
      refine ⟨List.nodup_cons.2 ⟨fun hm => hs name hm (List.mem_cons_self ..), hd⟩, ?_⟩
      intro n hm
      rcases List.mem_cons.1 hm with rfl | hm
      · exact hnot
      · exact fun hseen => hs n hm (List.mem_cons_of_mem _ hseen)

/-- A schema: its attributes have pairwise distinct names. What it calls itself is published as it
was given. -/
structure SchemaDocument where
  id : String
  name : Value
  description : Value
  attributes : List Attribute
  distinct : (attributes.map (·.name)).Nodup

/-- An attribute name that occurs twice in a schema. -/
structure DuplicateAttribute where
  name : String
  schema : String
  deriving DecidableEq, Repr

/-- The wording of a duplicate. -/
def DuplicateAttribute.message (e : DuplicateAttribute) : String :=
  "Duplicate attribute '" ++ e.name ++ "' in schema " ++ e.schema

namespace SchemaDocument

/-- The schema with the given attributes, if their names are distinct. -/
def ofAttributes (id : String) (name description : Value) (attributes : List Attribute) :
    Except DuplicateAttribute SchemaDocument :=
  match h : firstRepeated? [] (attributes.map (·.name)) with
  | some repeated => .error ⟨repeated, id⟩
  | none => .ok ⟨id, name, description, attributes, (firstRepeated?_eq_none h).1⟩

/-- The attribute names in order. -/
def names (d : SchemaDocument) : List String := d.attributes.map (·.name)

/-- The attribute of a name. -/
def attribute? (d : SchemaDocument) (name : String) : Option Attribute :=
  d.attributes.find? fun a => a.name == name

/-- The schema as a resource under a base address. -/
def toValue (d : SchemaDocument) (baseUrl : String) : Value :=
  .object
    [("schemas", .texts [Urn.schema]),
     ("id", .string d.id),
     ("name", d.name),
     ("description", d.description),
     ("attributes", .array (Attribute.toValues d.attributes)),
     ("meta", .object
       [("resourceType", .string "Schema"),
        ("location", .string (dropEnd '/' baseUrl ++ "/Schemas/" ++ d.id))])]

end SchemaDocument

end ScimBridge
