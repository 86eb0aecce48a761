import ScimBridge.Proofs.Json.Fields
import ScimBridge.Proofs.Patch.Entries

/-!
# What patch operations point at

A converter whose table and whose resources lead to some backend attributes only converts a patch
request into operations on these attributes (`Exposes.point_entry`). There is one exception:
the removal of the whole enterprise extension is a removal of all its mapped attributes, whatever
the type of the resource.
-/

namespace ScimBridge

namespace Patch

namespace Converter

variable {c : Converter} {names : List String}

/-- Table and resources lead to some backend attributes only. -/
structure Exposes (c : Converter) (names : List String) : Prop where
  table : ∀ p ∈ c.table, p.2 ∈ names
  attributes : ∀ resource, (c.attributesOf resource).keys ⊆ names
  members : c.type = .group → "members" ∈ names

/-- The pointers to some backend attributes; the list of members can also be appended to. -/
def pointers (type : ResourceType) (names : List String) : List String :=
  names.map ("/" ++ ·) ++ if type = .group then ["/members/-"] else []

theorem pointer_of_mem {type : ResourceType} {name : String} (h : name ∈ names) :
    "/" ++ name ∈ pointers type names :=
  List.mem_append_left _ (List.mem_map_of_mem h)

/-- Operations that point at some backend attributes only. -/
def PointAt (type : ResourceType) (names : List String) (operations : List Operation) : Prop :=
  ∀ o ∈ operations, o.field ∈ pointers type names

/-- Whether a path is that of the enterprise extension as a whole. -/
def NamesExtension (path : String) : Prop :=
  (Target.of path).schema = some Urn.enterpriseUser ∧ (Target.of path).plain = ""

/-- An entry that removes the enterprise extension as a whole. -/
def RemovesExtension (entry : Value) : Prop :=
  ∃ members path, entry = .object members ∧ verbOf members = .ok .remove ∧
    pathOf members = .ok path ∧ NamesExtension path

/-- The removal of every mapped attribute of the enterprise extension. -/
def extensionRemovals (config : MappingConfig) : List Operation :=
  config.enterprise.map fun m => ⟨.remove, "/" ++ m.backendAttribute, none⟩

/-! ## Paths -/

/-- Nothing is lost with the repetitions. -/
theorem mem_distinct_iff {items : List String} {name : String} :
    name ∈ distinct items ↔ name ∈ items := by
  have hfold : ∀ items seen : List String,
      name ∈ items.foldl (fun acc item => if acc.contains item then acc else acc ++ [item]) seen ↔
        name ∈ seen ∨ name ∈ items := by
    intro items
    induction items with
    | nil => simp
    | cons item items ih =>
      intro seen
      rw [List.foldl_cons, ih, List.mem_cons]
      by_cases hitem : seen.contains item = true
      · have hseen : name = item → name ∈ seen := by
          rintro rfl
          simpa using hitem
        rw [if_pos hitem, ← or_assoc, or_iff_left_of_imp hseen]
      · rw [if_neg hitem, List.mem_append, List.mem_singleton, or_assoc]
  exact (hfold items []).trans (by simp)

/-- The fields below a path are those of its entries. -/
theorem mem_fieldsBelow_iff {table : Filter.PathTable} {path field : String} :
    field ∈ fieldsBelow table path ↔ ∃ p ∈ table, covers path p.1 = true ∧ p.2 = field := by
  rw [fieldsBelow, mem_distinct_iff, List.mem_map]
  simp only [List.mem_filter, and_assoc]

/-- The fields that a path covers stand in the table, unless it is that of the extension. -/
theorem fieldsFor_cases {path : String} {fields : List String}
    (h : c.fieldsFor path = .ok fields) :
    (NamesExtension path ∧ fields = c.config.enterprise.map (·.backendAttribute)) ∨
      ∀ field ∈ fields, ∃ p ∈ c.table, p.2 = field := by
  unfold fieldsFor at h
  extract_lets target whole found at h
  have hfound : found = some fields := by
    cases hfound : found <;> simp_all
  -- `whole` is filled by the path of the extension only; where it is empty, the table was searched
  by_cases hwhole : whole.isEmpty = true
  · right
    intro field hfield
    rw [show found = _ from if_pos hwhole] at hfound
    obtain ⟨path', -, rfl⟩ := List.mem_map.1 (List.mem_of_find?_eq_some hfound)
    obtain ⟨p, hp, -, hfield⟩ := mem_fieldsBelow_iff.1 hfield
    exact ⟨p, hp, hfield⟩
  · left
    have hfields : whole = fields := Option.some.inj ((if_neg hwhole).symm.trans hfound)
    by_cases hnames : target.schema = some Urn.enterpriseUser ∧ target.plain = ""
    · exact ⟨hnames, hfields.symm.trans (if_pos hnames)⟩
    · exact (hwhole (by simp [whole, hnames])).elim

/-- The path of the extension covers its mapped attributes, if there are any. -/
theorem fieldsFor_extension {path : String} (h : NamesExtension path)
    (hmapped : c.config.enterprise ≠ []) :
    c.fieldsFor path = .ok (c.config.enterprise.map (·.backendAttribute)) := by
  have hwhole : (c.config.enterprise.map (·.backendAttribute)).isEmpty = false := by
    simpa using hmapped
  obtain ⟨hschema, hplain⟩ := h
  simp only [fieldsFor, hschema, hplain, and_self, if_true, hwhole, Bool.false_eq_true, if_false]

/-! ## Operations -/

section

variable (hc : c.Exposes names) {verb : Verb} {path : String} {value : Value}
  {operations : List Operation}

include hc

theorem Exposes.point_attributes (verb : Verb) (resource : Fields Value) :
    PointAt c.type names (operationsOf verb (c.attributesOf resource)) :=
  List.forall_mem_map.2 fun _ hp =>
    pointer_of_mem (hc.attributes resource (List.mem_map_of_mem hp))

theorem Exposes.point_attributeOperations
    (h : c.attributeOperations verb path value = .ok operations) :
    PointAt c.type names operations := by
  obtain ⟨document, -, h⟩ := bind_eq_ok_iff.1 h
  have hattributes := hc.point_attributes verb document
  split at h
  · cases h
  · cases h
    exact hattributes

/-- An operation on the list of members points at it. -/
theorem Exposes.pointer_members (htype : c.type = .group) : "/members" ∈ pointers c.type names :=
  pointer_of_mem (hc.members htype)

theorem Exposes.point_memberOperations (htype : c.type = .group)
    (h : c.memberOperations verb value = .ok operations) : PointAt c.type names operations := by
  obtain ⟨refs, -, h⟩ := bind_eq_ok_iff.1 h
  cases h
  split
  · exact List.forall_mem_map.2 fun ref _ => by simp [pointers, htype]
  · exact List.forall_mem_singleton.2 (hc.pointer_members htype)

theorem Exposes.point_removeReferences (htype : c.type = .group)
    (h : c.removeReferences value = .ok operations) : PointAt c.type names operations := by
  obtain ⟨refs, -, h⟩ := bind_eq_ok_iff.1 h
  cases h
  exact List.forall_mem_map.2 fun ref _ => hc.pointer_members htype

theorem Exposes.point_removeMembers (htype : c.type = .group)
    (h : c.removeMembers path value = .ok operations) : PointAt c.type names operations := by
  unfold removeMembers at h
  split at h
  · split at h
    · cases h
    · exact hc.point_removeReferences htype h
  · split at h
    · cases h
      exact List.forall_mem_singleton.2 (hc.pointer_members htype)
    · exact hc.point_removeReferences htype h

theorem Exposes.point_objectOperations {members : Fields Value}
    (h : c.objectOperations verb members = .ok operations) :
    PointAt c.type names operations := by
  have hown := hc.point_attributes verb members
  unfold objectOperations at h
  dsimp only at h
  split at h
  · rename_i value htype _
    obtain ⟨more, hmore, h⟩ := bind_eq_ok_iff.1 h
    cases h
    exact List.forall_mem_append.2 ⟨hown, hc.point_memberOperations htype hmore⟩
  · cases h
    exact hown

theorem Exposes.point_fields {fields : List String}
    (h : ∀ field ∈ fields, ∃ p ∈ c.table, p.2 = field) :
    PointAt c.type names (fields.map fun field => ⟨.remove, "/" ++ field, none⟩) := by
  refine List.forall_mem_map.2 fun field hfield => ?_
  obtain ⟨p, hp, rfl⟩ := h field hfield
  exact pointer_of_mem (hc.table p hp)

omit hc in
theorem isMembersPath_type (h : c.isMembersPath path = true) : c.type = .group := by
  simp only [isMembersPath, Bool.and_eq_true, beq_iff_eq] at h
  exact h.1

theorem Exposes.point_writing (hverb : verb ≠ .remove)
    (h : c.operations verb path value = .ok operations) : PointAt c.type names operations := by
  unfold Converter.operations at h
  split at h
  · exact (hverb rfl).elim
  · split at h
    · cases h
    · split at h
      · split at h
        · exact hc.point_objectOperations h
        · cases h
      · split at h
        · rename_i hmembers
          exact hc.point_memberOperations (isMembersPath_type hmembers) h
        · exact hc.point_attributeOperations h

/-- A removal is one of exposed attributes, or that of the extension. -/
theorem Exposes.removal_cases (h : c.operations .remove path value = .ok operations) :
    PointAt c.type names operations ∨
      NamesExtension path ∧ operations = extensionRemovals c.config := by
  simp only [Converter.operations] at h
  split at h
  · cases h
  · split at h
    · rename_i hmembers
      exact .inl (hc.point_removeMembers (isMembersPath_type hmembers) h)
    · obtain ⟨fields, hfields, rfl⟩ := map_eq_ok_iff.1 h
      rcases fieldsFor_cases hfields with ⟨hnames, rfl⟩ | htable
      · refine .inr ⟨hnames, ?_⟩
        rw [extensionRemovals, List.map_map]
        rfl
      · exact .inl (hc.point_fields htable)

/-- The operations of an entry point at exposed attributes, or the entry removes the extension. -/
theorem Exposes.point_entry {entry : Value} (h : c.entryOperations entry = .ok operations) :
    PointAt c.type names operations ∨
      RemovesExtension entry ∧ operations = extensionRemovals c.config := by
  cases entry with
  | object members =>
    obtain ⟨verb, hverb, h⟩ := bind_eq_ok_iff.1 h
    obtain ⟨path, hpath, h⟩ := bind_eq_ok_iff.1 h
    by_cases hremove : verb = .remove
    · subst hremove
      exact (hc.removal_cases h).imp_right fun ⟨hnames, hoperations⟩ =>
        ⟨⟨members, path, rfl, hverb, hpath, hnames⟩, hoperations⟩
    · exact .inl (hc.point_writing hremove h)
  | _ => cases h

end

end Converter

end Patch

end ScimBridge
