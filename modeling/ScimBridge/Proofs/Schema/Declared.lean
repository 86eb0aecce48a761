import ScimBridge.Proofs.Mapping.Places
import ScimBridge.Proofs.Schema.Compiled

/-!
# What compiled schemas declare

A mapped attribute is declared under the first name of its path, if it stands at the top; in the
enterprise extension also if it stands right below the top, since a parent is made up for it there
(`mem_namesOf_addMappings`). So the user schema declares the core attributes, the published
properties and the core attributes that are mapped at the top (`Published.declares_core_iff`), and
the extension the first names of its attributes with at most two names
(`Published.declares_extension_iff`).
-/

namespace ScimBridge

namespace Schema

variable {attributes : List Attribute} {m : Mapping} {ms : List Mapping} {name : String}

/-! ## Mapped attributes -/

theorem mem_namesOf_append {a : Attribute} :
    name ∈ namesOf (attributes ++ [a]) ↔ name ∈ namesOf attributes ∨ a.name = name := by
  simp [namesOf, eq_comm]

theorem mem_namesOf_addTop (hm : m.isNested = false) :
    name ∈ namesOf (addTop attributes m) ↔ name ∈ namesOf attributes ∨ m.root = name := by
  rw [m.root_of_not_isNested hm]
  unfold addTop
  split
  · rename_i htaken
    rw [named_iff] at htaken
    exact ⟨.inl, fun h => h.elim id fun heq => heq ▸ htaken⟩
  · rw [mem_namesOf_append]
    show _ ∨ m.leafName = name ↔ _
    rw [Mapping.leafName_of_not_isNested hm]

/-- A nested mapping adds a name only where a parent is made up at the top. -/
theorem mem_namesOf_addNested {makeParents : Bool} :
    name ∈ namesOf (addNested makeParents attributes m) ↔
      name ∈ namesOf attributes ∨ makeParents = true ∧ m.depth = 2 ∧ m.root = name := by
  rw [← Mapping.parentPath?_top_iff]
  unfold addNested
  cases hparent : m.parentPath? with
  | none => simp
  | some parent =>
    by_cases htaken : named parent attributes = true
    · rw [named_iff] at htaken
      simp only [named_iff, htaken, if_true, namesOf_modifyNamed _ (name_extendParent m)]
      refine ⟨.inl, fun h => h.elim id fun htop => ?_⟩
      rwa [← Option.some.inj htop.2.1]
    · simp only [htaken]
      cases makeParents with
      | false => simp
      | true =>
        by_cases hdot : '.' ∈ parent.toList
        · have hnot : ¬ (some parent = some name ∧ '.' ∉ name.toList) :=
            fun h => h.2 (Option.some.inj h.1 ▸ hdot)
          rw [if_neg (by simp), if_neg (by simpa using hdot)]
          simp only [hnot, and_false, or_false]
        · have htop : (some parent = some name ∧ '.' ∉ name.toList) ↔ parent = name :=
            ⟨fun h => Option.some.inj h.1, fun h => ⟨congrArg some h, h ▸ hdot⟩⟩
          rw [if_neg (by simp), if_pos (by simpa using hdot), mem_namesOf_append, htop]
          simp [madeUpParent]

/-- Mapped attributes are declared under their first names: in the enterprise extension those with
at most two names, else those with one. -/
theorem mem_namesOf_addMappings {makeParents : Bool} :
    name ∈ namesOf (addMappings makeParents attributes ms) ↔ name ∈ namesOf attributes ∨
      ∃ m ∈ ms, m.root = name ∧ m.depth ≤ if makeParents then 2 else 1 := by
  have htops : name ∈ namesOf ((ms.filter fun m => !m.isNested).foldl addTop attributes) ↔
      name ∈ namesOf attributes ∨ ∃ m ∈ ms.filter (fun m => !m.isNested), m.root = name := by
    refine Fields.foldl_iff (fun _ => True) (fun as => name ∈ namesOf as)
      (fun m : Mapping => m.root = name)
      (fun _ _ _ _ => trivial) (fun _ _ m hm => ?_) trivial
    exact mem_namesOf_addTop (by simpa using (List.mem_filter.1 hm).2)
  have hnested : ∀ tops, name ∈ namesOf ((ms.filter Mapping.isNested).foldl
      (addNested makeParents) tops) ↔ name ∈ namesOf tops ∨
        ∃ m ∈ ms.filter Mapping.isNested, makeParents = true ∧ m.depth = 2 ∧ m.root = name :=
    fun _ => Fields.foldl_iff (fun _ => True) (fun as => name ∈ namesOf as)
      (fun m : Mapping => makeParents = true ∧ m.depth = 2 ∧ m.root = name)
      (fun _ _ _ _ => trivial) (fun _ _ _ _ => mem_namesOf_addNested) trivial
  unfold addMappings
  rw [hnested, htops, or_assoc, ← exists_or]
  refine or_congr_right (exists_congr fun m => ?_)
  have hpositive : 0 < m.depth := List.length_pos_iff.2 (Resource.segments_ne_nil m.path)
  have hnest := m.isNested_iff
  rw [List.mem_filter, List.mem_filter]
  cases hm : m.isNested with
  | false =>
    have hdepth : m.depth = 1 := by
      rw [hm] at hnest
      have := mt hnest.2 Bool.false_ne_true
      omega
    cases makeParents <;> simp [hdepth]
  | true =>
    have hdepth : 1 < m.depth := hnest.1 hm
    have htwo : m.depth = 2 ↔ m.depth ≤ 2 := by omega
    cases makeParents with
    | false => simp [Nat.not_le.2 hdepth]
    | true => simp [htwo, and_comm]

/-! ## Properties -/

/-- Whether a property map has a definition with members for a name. -/
def Defines (properties : Fields Value) (name : String) : Prop :=
  ∃ v, properties.get? name = some v ∧ v.members?.isSome = true

/-- A property is declared if it is defined, and neither covered by the core attributes nor
internal. -/
theorem mem_namesOf_propertyAttributes {properties : Fields Value} (h : properties.keys.Nodup) :
    name ∈ namesOf (propertyAttributes properties) ↔
      Defines properties name ∧ name ∉ coveredNames ∧ isInternal name = false := by
  constructor
  · intro hname
    obtain ⟨a, ha, rfl⟩ := List.mem_map.1 hname
    obtain ⟨⟨key, v⟩, hp, hattribute⟩ := List.mem_filterMap.1 ha
    obtain ⟨hname, hcovered⟩ := name_of_propertyAttribute? hattribute
    unfold propertyAttribute? at hattribute
    split at hattribute
    · cases hattribute
    · rename_i hopen
      obtain ⟨definition, hdefinition, -⟩ := Option.map_eq_some_iff.1 hattribute
      rw [Bool.or_eq_true, not_or] at hopen
      rw [hname]
      exact ⟨⟨v, (Fields.get?_eq_some_iff h).2 hp, Option.isSome_of_eq_some hdefinition⟩, hcovered,
        eq_false_of_ne_true hopen.2⟩
  · rintro ⟨⟨v, hv, hmembers⟩, hcovered, hinternal⟩
    obtain ⟨definition, hdefinition⟩ := Option.isSome_iff_exists.1 hmembers
    refine List.mem_map.2 ⟨propertyAttribute name definition,
      List.mem_filterMap.2 ⟨_, Fields.mem_of_get? hv, ?_⟩, rfl⟩
    unfold propertyAttribute?
    rw [if_neg (by simp [hcovered, hinternal]), hdefinition]
    rfl

/-! ## Documents -/

/-- There is a schema with an identifier. -/
def Publishes (documents : Fields SchemaDocument) (urn : String) : Prop :=
  ∃ p ∈ documents, p.2.id = urn

/-- The schema with an identifier declares an attribute. -/
def Declares (documents : Fields SchemaDocument) (urn name : String) : Prop :=
  ∃ p ∈ documents, p.2.id = urn ∧ name ∈ namesOf p.2.attributes

/-- The properties of users. -/
def PropertyMaps.userFields (p : PropertyMaps) : Fields Value := p.properties.user.getD []

theorem PropertyMaps.nodup_userFields (p : PropertyMaps) : p.userFields.keys.Nodup := by
  unfold userFields properties
  cases p.user with
  | none => exact List.nodup_nil
  | some properties => exact properties.distinct

/-- The name of a core attribute, of a published property, or of an attribute that is mapped at the
top of the core schema. -/
def CoreName (properties : Fields Value) (c : MappingConfig) (name : String) : Prop :=
  name ∈ namesOf coreUser ∨
    (Defines properties name ∧ name ∉ coveredNames ∧ isInternal name = false) ∨
    ∃ m ∈ c.mappings, m.isCoreUser = true ∧ m.root = name ∧ m.depth = 1

/-- The first name of an attribute of the extension with at most two names. -/
def ExtensionName (c : MappingConfig) (name : String) : Prop :=
  ∃ m ∈ c.mappings, m.isEnterprise = true ∧ m.root = name ∧ m.depth ≤ 2

section

variable {user group : SchemaDocument} {extension? : Option SchemaDocument}

theorem mem_documentsOf {entry : String × SchemaDocument} :
    entry ∈ documentsOf user extension? group ↔
      entry = ("User", user) ∨ (∃ d ∈ extension?, entry = ("EnterpriseUser", d)) ∨
        entry = ("Group", group) := by
  cases extension? <;> simp [documentsOf]

variable {p : PropertyMaps} {c : MappingConfig} (h : Published p c user extension? group)

include h

/-- Each schema is found by its identifier. -/
theorem Published.found {entry : String × SchemaDocument}
    (hentry : entry ∈ documentsOf user extension? group) :
    (entry.2.id = Urn.coreUser → entry.2 = user) ∧
      (entry.2.id = Urn.enterpriseUser → entry.2 ∈ extension?) := by
  have hurns : Urn.coreUser ≠ Urn.enterpriseUser ∧ Urn.coreGroup ≠ Urn.coreUser ∧
      Urn.coreGroup ≠ Urn.enterpriseUser := by decide
  rcases mem_documentsOf.1 hentry with rfl | ⟨d, hd, rfl⟩ | rfl
  · exact ⟨fun _ => rfl, fun hid => absurd (h.user_id.symm.trans hid) hurns.1⟩
  · exact ⟨fun hid => absurd (hid.symm.trans (h.extension d hd).1) hurns.1, fun _ => hd⟩
  · exact ⟨fun hid => absurd (h.group_id.symm.trans hid) hurns.2.1,
      fun hid => absurd (h.group_id.symm.trans hid) hurns.2.2⟩

theorem Published.publishes_core : Publishes (documentsOf user extension? group) Urn.coreUser :=
  ⟨("User", user), mem_documentsOf.2 (.inl rfl), h.user_id⟩

/-- The user schema declares the core attributes, the published properties, and what is mapped at
its top. -/
theorem Published.declares_core_iff :
    Declares (documentsOf user extension? group) Urn.coreUser name ↔
      CoreName p.userFields c name := by
  have hdeclares : Declares (documentsOf user extension? group) Urn.coreUser name ↔
      name ∈ namesOf user.attributes := by
    constructor
    · rintro ⟨entry, hentry, hid, hname⟩
      rwa [← (h.found hentry).1 hid]
    · exact fun hname => ⟨("User", user), mem_documentsOf.2 (.inl rfl), h.user_id, hname⟩
  have hmapped : (∃ m ∈ c.coreUser, m.root = name ∧ m.depth ≤ 1) ↔
      ∃ m ∈ c.mappings, m.isCoreUser = true ∧ m.root = name ∧ m.depth = 1 := by
    refine exists_congr fun m => ?_
    have hpositive : 0 < m.depth := List.length_pos_iff.2 (Resource.segments_ne_nil m.path)
    have hone : m.depth ≤ 1 ↔ m.depth = 1 := by omega
    rw [MappingConfig.coreUser, List.mem_filter, and_assoc, hone]
  rw [hdeclares, h.user_attributes]
  show name ∈
    namesOf (addMappings false (coreUser ++ propertyAttributes p.userFields) c.coreUser) ↔ _
  rw [mem_namesOf_addMappings, namesOf, List.map_append, List.mem_append, or_assoc]
  exact or_congr_right (or_congr (mem_namesOf_propertyAttributes p.nodup_userFields) hmapped)

theorem Published.extension_iff {name : String} :
    (∃ d ∈ extension?, name ∈ namesOf d.attributes) ↔ ExtensionName c name := by
  have hmapped : ExtensionName c name ↔
      name ∈ namesOf (addMappings true [] c.enterprise) := by
    rw [mem_namesOf_addMappings]
    simp only [namesOf, List.map_nil, List.not_mem_nil, false_or, MappingConfig.enterprise,
      List.mem_filter, and_assoc]
    rfl
  rw [hmapped]
  constructor
  · rintro ⟨d, hd, hname⟩
    rwa [← (h.extension d hd).2]
  · intro hname
    cases hextension : extension? with
    | none =>
      rw [h.extension_none.1 hextension] at hname
      cases hname
    | some d => exact ⟨d, rfl, by rwa [(h.extension d hextension).2]⟩

/-- The extension declares the first names of its attributes with at most two names. -/
theorem Published.declares_extension_iff :
    Declares (documentsOf user extension? group) Urn.enterpriseUser name ↔
      ExtensionName c name := by
  rw [← h.extension_iff]
  constructor
  · rintro ⟨entry, hentry, hid, hname⟩
    exact ⟨entry.2, (h.found hentry).2 hid, hname⟩
  · rintro ⟨d, hd, hname⟩
    exact ⟨("EnterpriseUser", d), mem_documentsOf.2 (.inr (.inl ⟨d, hd, rfl⟩)),
      (h.extension d hd).1, hname⟩

end

end Schema

end ScimBridge
