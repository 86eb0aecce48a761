import Mathlib.Data.List.Nodup
import ScimBridge.Proofs.Text.Cut
import ScimBridge.Schema.Cache

/-!
# Compiled schemas

Schemas can be compiled from every property map and every list of mappings (`compileAll_eq`): the
compiler never makes an attribute list in which a name occurs twice, and the schemas that it makes
have three different identifiers.

1. Core attributes have covered names, and properties of covered names are passed over.
2. A mapping is entered under a name that was free, or it changes an attribute that keeps its name.
-/

namespace ScimBridge

theorem firstRepeated?_of_nodup {names : List String} (h : names.Nodup) {seen : List String}
    (hseen : ∀ n ∈ names, n ∉ seen) : firstRepeated? seen names = none := by
  induction names generalizing seen with
  | nil => rfl
  | cons name rest ih =>
    obtain ⟨hname, hrest⟩ := List.nodup_cons.1 h
    have hnot : seen.contains name = false := by
      simpa using hseen name List.mem_cons_self
    rw [firstRepeated?, hnot, if_neg Bool.false_ne_true]
    refine ih hrest fun n hn hmem => ?_
    rcases List.mem_cons.1 hmem with rfl | hmem
    · exact hname hn
    · exact hseen n (List.mem_cons_of_mem _ hn) hmem

theorem SchemaDocument.ofAttributes_of_nodup (id : String) (name description : Value)
    {attributes : List Attribute} (h : (attributes.map (·.name)).Nodup) :
    ofAttributes id name description attributes = .ok ⟨id, name, description, attributes, h⟩ := by
  have hnone : firstRepeated? [] (attributes.map (·.name)) = none :=
    firstRepeated?_of_nodup h (by simp)
  unfold ofAttributes
  split
  · rename_i hsome
    rw [hnone] at hsome
    cases hsome
  · rfl

/-- A mapping that is not nested publishes its path as its name. -/
theorem Mapping.leafName_of_not_isNested {m : Mapping} (h : m.isNested = false) :
    m.leafName = m.path := by
  have hcut : cutAt '.' m.path.toList = [m.path.toList] :=
    cutAt_of_not_mem (by simpa [isNested] using h)
  simp [leafName, hcut]

namespace Schema

/-! ## Attribute lists without repeated names -/

/-- The names of some attributes. -/
def namesOf (attributes : List Attribute) : List String := attributes.map (·.name)

theorem named_iff {name : String} {attributes : List Attribute} :
    named name attributes = true ↔ name ∈ namesOf attributes := by
  simp [named, namesOf]

theorem nodup_addTop {attributes : List Attribute} {m : Mapping} (hm : m.isNested = false)
    (h : (namesOf attributes).Nodup) : (namesOf (addTop attributes m)).Nodup := by
  unfold addTop
  split
  · exact h
  · rename_i hfree
    rw [named_iff, ← Mapping.leafName_of_not_isNested hm] at hfree
    rw [namesOf, List.map_append, List.map_singleton, ← List.concat_eq_append]
    exact h.concat hfree

theorem name_extendParent (m : Mapping) (parent : Attribute) :
    (extendParent m parent).name = parent.name := by
  unfold extendParent
  split <;> rfl

/-- What a change leaves alone in each attribute is the same for all attributes as before. -/
theorem map_modifyNamed {β : Type} {g : Attribute → β} (name : String) {f : Attribute → Attribute}
    (hf : ∀ a, g (f a) = g a) (attributes : List Attribute) :
    (modifyNamed name f attributes).map g = attributes.map g := by
  induction attributes with
  | nil => rfl
  | cons a rest ih =>
    rw [modifyNamed]
    split
    · simp only [List.map_cons, hf]
    · simp only [List.map_cons, ih]

theorem namesOf_modifyNamed (name : String) {f : Attribute → Attribute}
    (hf : ∀ a, (f a).name = a.name) (attributes : List Attribute) :
    namesOf (modifyNamed name f attributes) = namesOf attributes :=
  map_modifyNamed name hf attributes

theorem nodup_addNested (makeParents : Bool) {attributes : List Attribute} (m : Mapping)
    (h : (namesOf attributes).Nodup) :
    (namesOf (addNested makeParents attributes m)).Nodup := by
  unfold addNested
  split
  · exact h
  · split
    · rw [namesOf_modifyNamed _ (name_extendParent m)]
      exact h
    · rename_i hfree
      rw [named_iff] at hfree
      split
      · rw [namesOf, List.map_append, List.map_singleton, ← List.concat_eq_append]
        exact h.concat hfree
      · exact h

/-- Mapped attributes are added without repeating a name. -/
theorem nodup_addMappings (makeParents : Bool) {attributes : List Attribute} (ms : List Mapping)
    (h : (namesOf attributes).Nodup) :
    (namesOf (addMappings makeParents attributes ms)).Nodup := by
  have htops : (namesOf ((ms.filter fun m => !m.isNested).foldl addTop attributes)).Nodup := by
    refine List.foldlRecOn (motive := fun as => (namesOf as).Nodup) _ _ h fun _ has m hm => ?_
    exact nodup_addTop (by simpa using (List.mem_filter.1 hm).2) has
  exact List.foldlRecOn (motive := fun as => (namesOf as).Nodup) _ _ htops
    fun _ has m _ => nodup_addNested makeParents m has

/-! ## Properties of the backend -/

/-- Property definitions by name. No name occurs twice. -/
structure PropertyMap where
  fields : Fields Value
  distinct : fields.keys.Nodup

theorem name_of_propertyAttribute? {p : String × Value} {a : Attribute}
    (h : propertyAttribute? p = some a) : a.name = p.1 ∧ p.1 ∉ coveredNames := by
  unfold propertyAttribute? at h
  split at h
  · cases h
  · rename_i hnot
    obtain ⟨members, -, rfl⟩ := Option.map_eq_some_iff.1 h
    refine ⟨rfl, fun hmem => hnot ?_⟩
    simp [hmem]

theorem namesOf_propertyAttributes_sublist (properties : Fields Value) :
    (namesOf (propertyAttributes properties)).Sublist properties.keys := by
  induction properties with
  | nil => exact .slnil
  | cons p rest ih =>
    rw [propertyAttributes, List.filterMap_cons]
    cases ha : propertyAttribute? p with
    | none => exact ih.cons _
    | some a =>
      simp only [namesOf, Fields.keys, List.map_cons, (name_of_propertyAttribute? ha).1]
      exact ih.cons_cons _

theorem not_mem_coveredNames_of_mem {properties : Fields Value} {name : String}
    (h : name ∈ namesOf (propertyAttributes properties)) : name ∉ coveredNames := by
  obtain ⟨a, ha, rfl⟩ := List.mem_map.1 h
  obtain ⟨p, -, hp⟩ := List.mem_filterMap.1 ha
  obtain ⟨hname, hnot⟩ := name_of_propertyAttribute? hp
  rwa [hname]

/-- Behind core attributes of covered names, the attributes of properties repeat no name. -/
theorem nodup_append_properties {core : List Attribute} (hcore : (namesOf core).Nodup)
    (hcovered : ∀ n ∈ namesOf core, n ∈ coveredNames) (properties : PropertyMap) :
    (namesOf (core ++ propertyAttributes properties.fields)).Nodup := by
  rw [namesOf, List.map_append]
  refine List.nodup_append.2 ⟨hcore, ?_, fun a ha b hb hab => ?_⟩
  · exact properties.distinct.sublist (namesOf_propertyAttributes_sublist _)
  · exact not_mem_coveredNames_of_mem hb (hab ▸ hcovered a ha)

/-- No properties. -/
def PropertyMap.empty : PropertyMap := ⟨[], List.nodup_nil⟩

theorem nodup_attributes (kind : ObjectKind) (properties : Option PropertyMap)
    (c : MappingConfig) :
    (namesOf (attributes kind (properties.map PropertyMap.fields) c)).Nodup := by
  have hfields : (properties.map PropertyMap.fields).getD [] =
      (properties.getD .empty).fields := by
    cases properties <;> rfl
  unfold attributes
  rw [hfields]
  cases kind with
  | user =>
    refine nodup_addMappings false _ (nodup_append_properties ?_ ?_ _)
    · decide
    · decide
  | group =>
    refine nodup_append_properties ?_ ?_ _
    · decide
    · decide

/-! ## The schemas of a deployment -/

/-- The identifier of the schema that a kind of objects is published under. -/
def schemaId : ObjectKind → String
  | .user => Urn.coreUser
  | .group => Urn.coreGroup

theorem compile_eq (kind : ObjectKind) (properties : Option PropertyMap) (c : MappingConfig) :
    ∃ d, compile kind (properties.map PropertyMap.fields) c = .ok d ∧ d.id = schemaId kind ∧
      d.attributes = attributes kind (properties.map PropertyMap.fields) c := by
  have h := nodup_attributes kind properties c
  cases kind <;> exact ⟨_, SchemaDocument.ofAttributes_of_nodup _ _ _ h, rfl, rfl⟩

/-- There is an extension iff it has attributes. -/
theorem compileExtension_eq (c : MappingConfig) :
    ∃ d?, compileExtension c = .ok d? ∧
      (∀ d ∈ d?, d.id = Urn.enterpriseUser ∧ d.attributes = addMappings true [] c.enterprise) ∧
      (d? = none ↔ addMappings true [] c.enterprise = []) := by
  have h : (namesOf (addMappings true [] c.enterprise)).Nodup :=
    nodup_addMappings true _ List.nodup_nil
  unfold compileExtension
  split
  · rename_i hnil
    exact ⟨none, rfl, by simp, iff_of_true rfl hnil⟩
  · rename_i hne
    rw [SchemaDocument.ofAttributes_of_nodup _ _ _ h]
    refine ⟨_, rfl, fun d hd => ?_, iff_of_false (by simp) hne⟩
    cases hd
    exact ⟨rfl, rfl⟩

/-- The property maps of users and groups. -/
structure PropertyMaps where
  user : Option PropertyMap := none
  group : Option PropertyMap := none

/-- The property maps as they are compiled. -/
def PropertyMaps.properties (p : PropertyMaps) : Properties :=
  ⟨p.user.map PropertyMap.fields, p.group.map PropertyMap.fields⟩

/-- The schemas of a deployment by the names of their resource types. -/
def documentsOf (user : SchemaDocument) (extension? : Option SchemaDocument)
    (group : SchemaDocument) : Fields SchemaDocument :=
  ("User", user) :: (extension?.toList.map fun d => ("EnterpriseUser", d)) ++ [("Group", group)]

/-- What the schemas of a deployment are compiled to. -/
structure Published (p : PropertyMaps) (c : MappingConfig) (user : SchemaDocument)
    (extension? : Option SchemaDocument) (group : SchemaDocument) : Prop where
  compiled : compileAll p.properties c = .ok (documentsOf user extension? group)
  user_id : user.id = Urn.coreUser
  user_attributes : user.attributes = attributes .user p.properties.user c
  extension : ∀ d ∈ extension?,
    d.id = Urn.enterpriseUser ∧ d.attributes = addMappings true [] c.enterprise
  extension_none : extension? = none ↔ addMappings true [] c.enterprise = []
  group_id : group.id = Urn.coreGroup

theorem exists_published (p : PropertyMaps) (c : MappingConfig) :
    ∃ user extension? group, Published p c user extension? group := by
  obtain ⟨user, huser, huid, hattributes⟩ := compile_eq .user p.user c
  obtain ⟨extension?, hextension, heach, hnone⟩ := compileExtension_eq c
  obtain ⟨group, hgroup, hgid, -⟩ := compile_eq .group p.group c
  refine ⟨user, extension?, group, ?_, huid, hattributes, heach, hnone, hgid⟩
  simp only [compileAll, PropertyMaps.properties, huser, hextension, hgroup]
  rfl

/-- All schemas can be compiled, each under the identifier that is its own. -/
theorem compileAll_eq (p : PropertyMaps) (c : MappingConfig) :
    ∃ user extension? group,
      compileAll p.properties c = .ok (documentsOf user extension? group) ∧
      user.id = Urn.coreUser ∧ (∀ d ∈ extension?, d.id = Urn.enterpriseUser) ∧
      group.id = Urn.coreGroup := by
  obtain ⟨user, extension?, group, h⟩ := exists_published p c
  exact ⟨user, extension?, group, h.compiled, h.user_id, fun d hd => (h.extension d hd).1,
    h.group_id⟩

end Schema

end ScimBridge
