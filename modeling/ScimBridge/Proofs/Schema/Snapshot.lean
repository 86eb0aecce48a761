import ScimBridge.Proofs.Json.Fields
import ScimBridge.Proofs.Schema.Compiled

/-!
# Snapshots that agree with themselves

All that can be asked of a snapshot has one answer behind it (`Snapshot.Consistent`): its
identifiers, its schemas and its resource types are equally many, a schema is found iff its
identifier is listed, and the attributes of a resource type are those of its schema. The snapshot
that there is before the first rebuild is consistent, and so is the snapshot of compiled schemas
(`exists_snapshotOf`).
-/

namespace ScimBridge

namespace Schema

/-- The identifiers of the schemas of resource types. -/
def typeIds : Fields String :=
  [("User", Urn.coreUser), ("EnterpriseUser", Urn.enterpriseUser), ("Group", Urn.coreGroup)]

theorem keys_typeIds_nodup : typeIds.keys.Nodup := by decide

/-- Different resource types have different schemas. -/
theorem typeIds_injective {type other id : String} (h : typeIds.get? type = some id)
    (ho : typeIds.get? other = some id) : type = other := by
  have hmem := (Fields.get?_eq_some_iff keys_typeIds_nodup).1 h
  have hother := (Fields.get?_eq_some_iff keys_typeIds_nodup).1 ho
  have hinj : ∀ p ∈ typeIds, ∀ q ∈ typeIds, p.2 = q.2 → p.1 = q.1 := by decide
  exact hinj _ hmem _ hother rfl

namespace Snapshot

/-- The answers of a snapshot agree with each other. -/
structure Consistent (s : Snapshot) : Prop where
  nodup_ids : s.ids.Nodup
  nodup_types : s.attributes.keys.Nodup
  length_ids : s.ids.length = s.documents.length
  length_list : s.list.length = s.documents.length
  length_types : s.attributes.keys.length = s.documents.length
  has_iff : ∀ id, s.has id = true ↔ id ∈ s.ids
  isSome_get? : ∀ id, (s.get? id).isSome = s.has id
  get?_eq_some_iff : ∀ id d, s.get? id = some d ↔ d ∈ s.list ∧ d.id = id
  attributesOf_eq : ∀ type,
    s.attributesOf type = (((typeIds.get? type).bind s.get?).map (·.attributes)).getD []
  hasEnterprise_iff : s.hasEnterprise = true ↔ Urn.enterpriseUser ∈ s.ids
  enterprise_type_iff : s.hasEnterprise = true ↔ "EnterpriseUser" ∈ s.attributes.keys

theorem has_eq_true_iff (s : Snapshot) (id : String) : s.has id = true ↔ id ∈ s.ids :=
  Fields.isSome_get?_iff

/-- Nothing is published before the first rebuild. -/
theorem consistent_empty : Consistent {} where
  nodup_ids := List.nodup_nil
  nodup_types := List.nodup_nil
  length_ids := rfl
  length_list := rfl
  length_types := rfl
  has_iff := has_eq_true_iff _
  isSome_get? := fun _ => rfl
  get?_eq_some_iff := fun _ _ => by simp [get?, list, Fields.get?_nil]
  attributesOf_eq := fun type => by
    cases typeIds.get? type <;> rfl
  hasEnterprise_iff := has_eq_true_iff _ _
  enterprise_type_iff := by simp [hasEnterprise, has, Fields.has, Fields.keys, Fields.get?_nil]

/-- The snapshot of some schemas by the names of their resource types. -/
def ofDocuments (documents : Fields SchemaDocument) : Snapshot where
  documents := documents.map fun p => (p.2.id, p.2)
  attributes := documents.map fun p => (p.1, p.2.attributes)
  initialized := true

section Documents

variable {documents : Fields SchemaDocument} (htypes : documents.keys.Nodup)
  (hids : (documents.map fun p => p.2.id).Nodup)

include hids in
theorem build_eq : build documents = .ok (ofDocuments documents) := by
  rw [build, firstRepeated?_of_nodup hids (by simp)]
  rfl

theorem ids_ofDocuments : (ofDocuments documents).ids = documents.map fun p => p.2.id := by
  simp [ids, Fields.keys, ofDocuments]

theorem types_ofDocuments : (ofDocuments documents).attributes.keys = documents.keys := by
  simp [Fields.keys, ofDocuments]

include hids in
theorem get?_ofDocuments {id : String} {d : SchemaDocument} :
    (ofDocuments documents).get? id = some d ↔ ∃ type, (type, d) ∈ documents ∧ d.id = id := by
  have hdistinct : (ofDocuments documents).ids.Nodup := by rwa [ids_ofDocuments]
  rw [get?, Fields.get?_eq_some_iff hdistinct]
  constructor
  · intro h
    obtain ⟨p, hp, heq⟩ := List.mem_map.1 h
    cases heq
    exact ⟨p.1, hp, rfl⟩
  · rintro ⟨type, h, rfl⟩
    exact List.mem_map.2 ⟨_, h, rfl⟩

include htypes in
theorem attributesOf_ofDocuments {type : String} {d : SchemaDocument}
    (h : (type, d) ∈ documents) : (ofDocuments documents).attributesOf type = d.attributes := by
  have hfound : (ofDocuments documents).attributes.get? type = some d.attributes := by
    rw [Fields.get?_eq_some_iff (by rwa [types_ofDocuments])]
    exact List.mem_map.2 ⟨_, h, rfl⟩
  rw [attributesOf, hfound]
  rfl

variable (hnamed : ∀ p ∈ documents, typeIds.get? p.1 = some p.2.id)

include htypes hids hnamed in
/-- Where every schema has the identifier of its resource type, the attributes of a type are found
by way of its schema. -/
theorem attributesOf_ofDocuments_eq (type : String) :
    (ofDocuments documents).attributesOf type =
      (((typeIds.get? type).bind (ofDocuments documents).get?).map (·.attributes)).getD [] := by
  by_cases h : type ∈ documents.keys
  · obtain ⟨p, hp, rfl⟩ := List.mem_map.1 h
    have hfound : (ofDocuments documents).get? p.2.id = some p.2 :=
      (get?_ofDocuments hids).2 ⟨p.1, hp, rfl⟩
    rw [attributesOf_ofDocuments htypes hp, hnamed p hp, Option.bind_some, hfound]
    rfl
  · have hnone : (ofDocuments documents).attributes.get? type = none := by
      rwa [Fields.get?_eq_none_iff, types_ofDocuments]
    rw [attributesOf, hnone, Option.getD_none]
    cases hid : typeIds.get? type with
    | none => rfl
    | some id =>
      rw [Option.bind_some]
      cases hd : (ofDocuments documents).get? id with
      | none => rfl
      | some d =>
        -- the schema would be published under another resource type of the same identifier
        obtain ⟨other, hmem, rfl⟩ := (get?_ofDocuments hids).1 hd
        have hother := hnamed _ hmem
        rw [typeIds_injective hid hother] at h
        exact absurd (List.mem_map_of_mem hmem) h

include htypes hids hnamed in
theorem consistent_ofDocuments : (ofDocuments documents).Consistent where
  nodup_ids := by rwa [ids_ofDocuments]
  nodup_types := by rwa [types_ofDocuments]
  length_ids := by simp [ids, Fields.keys]
  length_list := by simp [list]
  length_types := by simp [Fields.keys, ofDocuments]
  has_iff := has_eq_true_iff _
  isSome_get? := fun _ => rfl
  get?_eq_some_iff := fun id d => by
    rw [get?_ofDocuments hids]
    simp [list, ofDocuments, Function.comp_def]
  attributesOf_eq := attributesOf_ofDocuments_eq htypes hids hnamed
  hasEnterprise_iff := has_eq_true_iff _ _
  enterprise_type_iff := by
    rw [hasEnterprise, has, Fields.has, Fields.isSome_get?_iff, types_ofDocuments]
    change Urn.enterpriseUser ∈ (ofDocuments documents).ids ↔ _
    rw [ids_ofDocuments]
    have hid : typeIds.get? "EnterpriseUser" = some Urn.enterpriseUser := by decide
    constructor
    · intro h
      obtain ⟨p, hp, hpid⟩ := List.mem_map.1 h
      rw [typeIds_injective hid (hpid ▸ hnamed p hp)]
      exact List.mem_map_of_mem hp
    · intro h
      obtain ⟨p, hp, hptype⟩ := List.mem_map.1 h
      have hpid := hnamed p hp
      rw [hptype, hid] at hpid
      exact List.mem_map.2 ⟨p, hp, (Option.some.inj hpid).symm⟩

end Documents

end Snapshot

/-- Compiled schemas always make a snapshot, and it is consistent. -/
theorem exists_snapshotOf (p : PropertyMaps) (c : MappingConfig) :
    ∃ documents s, compileAll p.properties c = .ok documents ∧
      Snapshot.build documents = .ok s ∧ snapshotOf p.properties c = .ok s ∧
      s.initialized = true ∧ s.Consistent := by
  obtain ⟨user, extension?, group, hcompiled, huser, hextension, hgroup⟩ := compileAll_eq p c
  have htypes : (documentsOf user extension? group).keys.Nodup := by
    cases extension? <;> simp [documentsOf, Fields.keys]
  have hnamed : ∀ q ∈ documentsOf user extension? group, typeIds.get? q.1 = some q.2.id := by
    cases extension? <;> simp_all [documentsOf] <;> decide
  have hids : ((documentsOf user extension? group).map fun q => q.2.id).Nodup := by
    cases extension? <;> simp_all [documentsOf] <;> decide
  have hbuild := Snapshot.build_eq hids
  refine ⟨_, _, hcompiled, hbuild, ?_, rfl, Snapshot.consistent_ofDocuments htypes hids hnamed⟩
  rw [snapshotOf, hcompiled]
  simp only [hbuild]
  rfl

end Schema

end ScimBridge
