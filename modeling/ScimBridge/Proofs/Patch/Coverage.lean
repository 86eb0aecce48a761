import ScimBridge.Proofs.Mapping.Places
import ScimBridge.Proofs.Patch.Pointers

/-!
# What a path covers

The table of a user's paths holds the usual paths, each mapping in both spellings, and the attributes
that are passed through (`get?_table`). A path covers the entries at or below it, whose names it
begins (`covers_iff_segments`). What it removes are the fields of these entries (`fieldsFor_outside`,
`fieldsFor_inside`), and a value that is written stands at the place of its path in a partial
resource (`documentAt_place`).
-/

namespace ScimBridge

open Resource

/-! ## The table -/

namespace Filter.PathTable

/-- The entries of the mappings of a deployment, in both spellings. -/
def mapped (c : MappingConfig) : List (String × String) :=
  c.mappings.flatMap fun m =>
    [(m.path, m.backendAttribute), (m.qualifiedPath, m.backendAttribute)]

theorem mem_mapped {c : MappingConfig} {path field : String} : (path, field) ∈ mapped c ↔
    ∃ m ∈ c.mappings, (path = m.path ∨ path = m.qualifiedPath) ∧ field = m.backendAttribute := by
  unfold mapped
  rw [List.mem_flatMap]
  refine exists_congr fun m => and_congr_right fun _ => ?_
  simp only [List.mem_cons, Prod.mk.injEq, List.not_mem_nil, or_false, ← or_and_right]

/-- Among these entries, a path is found with the attribute of the last mapping that it spells. -/
theorem get?_reverse_mapped (c : MappingConfig) (path : String) :
    Fields.get? (mapped c).reverse path =
      (c.mappings.reverse.find? fun m => path == m.path || path == m.qualifiedPath).map
        (·.backendAttribute) := by
  have hone : ∀ m : Mapping, Fields.get?
      [(m.path, m.backendAttribute), (m.qualifiedPath, m.backendAttribute)].reverse path =
        ([m].find? fun m => path == m.path || path == m.qualifiedPath).map
          (·.backendAttribute) := by
    intro m
    rw [List.reverse_cons, List.reverse_singleton, List.singleton_append, Fields.get?_cons,
      Fields.get?_cons, Fields.get?_nil, List.find?_singleton]
    cases path == m.path <;> cases path == m.qualifiedPath <;> rfl
  unfold mapped
  -- on the mappings: what a later one enters goes before what the first one does
  induction c.mappings with
  | nil => rfl
  | cons m rest ih =>
    rw [List.flatMap_cons, List.reverse_append, Fields.get?_append, ih, hone, List.reverse_cons,
      List.find?_append, Option.map_or]

theorem user_eq (c : MappingConfig) : user c = Fields.putAll usualUser (mapped c) := by
  have hfold : ∀ (mappings : List Mapping) (table : Filter.PathTable),
      mappings.foldl enter table = Fields.putAll table (mappings.flatMap fun m =>
        [(m.path, m.backendAttribute), (m.qualifiedPath, m.backendAttribute)]) := by
    intro mappings
    induction mappings with
    | nil => exact fun _ => rfl
    | cons m rest ih =>
      intro table
      rw [List.foldl_cons, ih, List.flatMap_cons, Fields.putAll_append]
      rfl
  exact hfold c.mappings usualUser

end Filter.PathTable

namespace Patch

/-- The place in a resource that a target names; the attributes of the extension lie inside its own
object. -/
def Target.place (t : Target) : List String :=
  if t.schema = some Urn.enterpriseUser then Urn.enterpriseUser :: segments t.plain
  else segments t.plain

theorem Target.place_ne_nil (t : Target) : t.place ≠ [] := by
  unfold Target.place
  split
  · exact List.cons_ne_nil _ _
  · exact segments_ne_nil _

namespace Converter

/-- The converter for users of a deployment. -/
def ofUsers (collections : Collections) (config : MappingConfig) : Converter :=
  .ofTable .user (.user config) collections config

/-- The attributes that a patch may name though no filter may. -/
def named : List String := User.passedThrough ++ ["password"]

variable {collections : Collections} {config : MappingConfig}

theorem type_ofUsers_ne_group : (ofUsers collections config).type ≠ .group :=
  fun h => by cases h

theorem table_eq : (ofUsers collections config).table =
    named.foldl (fun acc name => Fields.putNew acc name name) (Filter.PathTable.user config) := by
  simp only [ofUsers, ofTable, named, if_true]

theorem attributesOf_ofUsers :
    (ofUsers collections config).attributesOf = User.toBackend config := rfl

theorem nodup_table : (ofUsers collections config).table.keys.Nodup := by
  rw [table_eq]
  refine List.foldlRecOn (motive := fun acc : Fields String => acc.keys.Nodup) named
    (fun acc name => Fields.putNew acc name name) ?_
    fun _ hacc name _ => Fields.nodup_keys_putNew hacc name name
  rw [Filter.PathTable.user_eq]
  exact Fields.nodup_keys_putAll (by decide) _

/-- The entries of the table that belong to no mapping. -/
def reserved : Filter.PathTable :=
  Filter.PathTable.usualUser ++ named.map fun name => (name, name)

/-- A path leads to the field of the last mapping that spells it, and without a mapping to the field
that is reserved for it. -/
theorem get?_table (path : String) : (ofUsers collections config).table.get? path =
    (Fields.get? (Filter.PathTable.mapped config).reverse path).or
      (Fields.get? reserved path) := by
  have hnamed : ∀ names : List String, Fields.get? (names.map fun n => (n, n)) path =
      if path ∈ names then some path else none := by
    intro names
    rw [← congrFun List.filterMap_eq_map' names]
    exact Fields.get?_filterMap some names path
  rw [table_eq, Fields.get?_foldl_putNew, Filter.PathTable.user_eq, Fields.get?_putAll,
    Option.or_assoc, reserved, Fields.get?_append, hnamed]

/-- An entry of the table is that of a mapping, or no mapping spells its path and it is reserved. -/
theorem table_cases {path field : String}
    (h : (ofUsers collections config).table.get? path = some field) :
    (∃ m ∈ config.mappings, (path = m.path ∨ path = m.qualifiedPath) ∧
      field = m.backendAttribute) ∨
    (∀ m ∈ config.mappings, path ≠ m.path ∧ path ≠ m.qualifiedPath) ∧
      Fields.get? reserved path = some field := by
  rw [get?_table] at h
  rcases Option.or_eq_some_iff.1 h with hmapped | ⟨hnone, hreserved⟩
  · exact .inl (Filter.PathTable.mem_mapped.1 (List.mem_reverse.1 (Fields.mem_of_get? hmapped)))
  · refine .inr ⟨fun m hm => not_or.1 fun hspelled => ?_, hreserved⟩
    have hentry := Filter.PathTable.mem_mapped.2 ⟨m, hm, hspelled, rfl⟩
    exact Fields.get?_eq_none_iff.1 hnone (List.mem_map_of_mem (List.mem_reverse.2 hentry))

/-- Each mapping is found under both spellings. -/
theorem isSome_get?_table {path field : String}
    (h : (path, field) ∈ Filter.PathTable.mapped config) :
    ((ofUsers collections config).table.get? path).isSome := by
  have hmapped : (Fields.get? (Filter.PathTable.mapped config).reverse path).isSome :=
    Fields.isSome_get?_iff.2 (List.mem_map_of_mem (List.mem_reverse.2 h))
  rw [get?_table, Option.isSome_or, hmapped, Bool.true_or]

/-! ## Covering -/

theorem covers_iff {path tablePath : String} :
    covers path tablePath = true ↔ tablePath = path ∨ (path ++ ".").toList <+: tablePath.toList := by
  simp only [covers, beginsWith, Bool.or_eq_true, beq_iff_eq, List.isPrefixOf_iff_prefix]

theorem covers_self (path : String) : covers path path = true := covers_iff.2 (.inl rfl)

/-- A path covers those whose names its own begin. -/
theorem covers_iff_segments {path tablePath : String} :
    covers path tablePath = true ↔ segments path <+: segments tablePath := by
  rw [covers_iff, segments, segments, cutText, cutText,
    List.prefix_map_iff_of_injective fun _ _ => String.ofList_injective]
  constructor
  · rintro (rfl | ⟨rest, hrest⟩)
    · exact List.prefix_rfl
    · have hcut : tablePath.toList = path.toList ++ '.' :: rest := by
        rw [← hrest, String.toList_append]
        simp
      rw [hcut, cutAt_append]
      exact List.prefix_append _ _
  · refine fun h => (eq_or_prefix_of_cutAt h).imp String.toList_inj.1 fun hprefix => ?_
    rw [String.toList_append]
    exact hprefix

theorem segments_of_covers {path tablePath : String} (h : covers path tablePath = true) :
    segments path <+: segments tablePath :=
  covers_iff_segments.1 h

/-! ## The fields of a path -/

/-- The table has an entry at or below a path. -/
def Knows (c : Converter) (path : String) : Prop :=
  ∃ entry ∈ c.table, covers path entry.1 = true

instance (c : Converter) (path : String) : Decidable (c.Knows path) :=
  inferInstanceAs (Decidable (∃ entry ∈ c.table, covers path entry.1 = true))

theorem fieldsBelow_ne_nil_iff {c : Converter} {path : String} :
    fieldsBelow c.table path ≠ [] ↔ c.Knows path := by
  constructor
  · intro hne
    obtain ⟨field, hfield⟩ := List.exists_mem_of_ne_nil _ hne
    obtain ⟨entry, hentry, hcovers, -⟩ := mem_fieldsBelow_iff.1 hfield
    exact ⟨entry, hentry, hcovers⟩
  · rintro ⟨entry, hentry, hcovers⟩
    exact List.ne_nil_of_mem (mem_fieldsBelow_iff.2 ⟨entry, hentry, hcovers, rfl⟩)

theorem distinct_eq_singleton {names : List String} {name : String} (hne : names ≠ [])
    (h : ∀ n ∈ names, n = name) : distinct names = [name] := by
  obtain ⟨first, rest, rfl⟩ := List.exists_cons_of_ne_nil hne
  obtain ⟨hfirst, hrest⟩ := List.forall_mem_cons.1 h
  subst hfirst
  exact List.foldlRecOn (motive := fun acc : List String => acc = [first]) rest
    (fun acc name => if acc.contains name then acc else acc ++ [name]) rfl
    fun acc hacc n hn => by simp [hacc, hrest n hn]

section

variable {table : Filter.PathTable} (hnodup : (Fields.keys table).Nodup) {path field : String}

include hnodup

theorem forall_covered (hall : ∀ tablePath other, covers path tablePath = true →
      Fields.get? table tablePath = some other → other = field) :
    ∀ other ∈ (table.filter fun p => covers path p.1).map Prod.snd, other = field := by
  intro other hother
  obtain ⟨p, hp, rfl⟩ := List.mem_map.1 hother
  obtain ⟨hmem, hcovers⟩ := List.mem_filter.1 hp
  exact hall p.1 p.2 hcovers ((Fields.get?_eq_some_iff hnodup).2 hmem)

/-- Where all entries that a path covers lead to one field, the path covers this field or none. -/
theorem fieldsBelow_cases (hall : ∀ tablePath other, covers path tablePath = true →
      Fields.get? table tablePath = some other → other = field) :
    fieldsBelow table path = [] ∨ fieldsBelow table path = [field] := by
  unfold fieldsBelow
  by_cases hnil : (table.filter fun p => covers path p.1).map Prod.snd = []
  · rw [hnil]
    exact .inl rfl
  · exact .inr (distinct_eq_singleton hnil (forall_covered hnodup hall))

theorem fieldsBelow_eq_singleton (hall : ∀ tablePath other, covers path tablePath = true →
      Fields.get? table tablePath = some other → other = field)
    (hsome : (Fields.get? table path).isSome) : fieldsBelow table path = [field] := by
  obtain ⟨other, hother⟩ := Option.isSome_iff_exists.1 hsome
  have hmem : (path, other) ∈ table.filter fun p => covers path p.1 :=
    List.mem_filter.2 ⟨Fields.mem_of_get? hother, covers_self path⟩
  exact distinct_eq_singleton (List.ne_nil_of_mem (List.mem_map_of_mem hmem))
    (forall_covered hnodup hall)

end

/-! ## Targets -/

theorem withoutFilters_eq_self {cs : List Char} (h : '[' ∉ cs) : withoutFilters cs = cs := by
  induction cs with
  | nil => rw [withoutFilters]
  | cons c cs ih =>
    rw [List.mem_cons, not_or] at h
    rw [withoutFilters, if_neg fun heq => h.1 heq.symm, ih h.2]

theorem plain_eq_self {target : Target} (h : '[' ∉ target.path.toList) :
    target.plain = target.path := by
  rw [Target.plain, withoutFilters_eq_self h, String.ofList_toList]

theorem behindSchema?_eq_none {urn path : String} (h : ¬ urn.toList <+: path.toList) :
    behindSchema? urn path = none := by
  have hne : path ≠ urn := fun heq => h (heq ▸ List.prefix_rfl)
  have hafter : after? (urn ++ ":").toList path.toList = none := by
    refine Option.eq_none_iff_forall_ne_some.2 fun rest hrest => h ?_
    rw [after?_eq_some_iff.1 hrest, String.toList_append, List.append_assoc]
    exact List.prefix_append _ _
  rw [behindSchema?, if_neg hne, textAfter?, hafter]
  rfl

/-- A path that begins with the name of no schema is all there is to it. -/
theorem target_of_unnamed {path : String} (h : ∀ urn ∈ schemas, ¬ urn.toList <+: path.toList) :
    Target.of path = ⟨none, path⟩ := by
  have hschemas : schemas.findSome? (fun urn =>
      (behindSchema? urn path).map fun rest => (urn, rest)) = none :=
    List.findSome?_eq_none_iff.2 fun urn hurn => by
      rw [behindSchema?_eq_none (h urn hurn)]
      rfl
  rw [Target.of, hschemas]

/-- A path without a colon names no schema. -/
theorem target_plain {path : String} (h : ':' ∉ path.toList) : Target.of path = ⟨none, path⟩ :=
  target_of_unnamed fun urn hurn hbegins =>
    h (hbegins.subset ((by decide : ∀ urn ∈ schemas, ':' ∈ urn.toList) urn hurn))

theorem behindSchema?_named (urn path : String) :
    behindSchema? urn (urn ++ ":" ++ path) = some path := by
  have hne : urn ++ ":" ++ path ≠ urn := by
    intro heq
    have := congrArg (fun s => s.toList.length) heq
    simp at this
  have hafter : after? (urn ++ ":").toList (urn ++ ":" ++ path).toList = some path.toList :=
    after?_eq_some_iff.2 String.toList_append
  rw [behindSchema?, if_neg hne, textAfter?, hafter, Option.map_some, String.ofList_toList]

/-- No schema's name with a colon behind it begins another one, or is begun by it. -/
theorem behindSchema?_of_ne {urn other : String} (hurn : urn ∈ schemas) (hother : other ∈ schemas)
    (hne : other ≠ urn) (path : String) : behindSchema? other (urn ++ ":" ++ path) = none := by
  have hapart : ∀ other ∈ schemas, ∀ urn ∈ schemas, other ≠ urn →
      ¬ other.toList <+: (urn ++ ":").toList ∧ ¬ (urn ++ ":").toList <+: other.toList := by decide
  obtain ⟨hshort, hlong⟩ := hapart other hother urn hurn hne
  have hunnamed : ¬ other.toList <+: (urn ++ ":" ++ path).toList := by
    intro hbegins
    have hpart : (urn ++ ":").toList <+: (urn ++ ":" ++ path).toList :=
      ⟨path.toList, String.toList_append.symm⟩
    rcases List.prefix_or_prefix_of_prefix hbegins hpart with h | h
    · exact hshort h
    · exact hlong h
  exact behindSchema?_eq_none hunnamed

/-- A path behind the name of a schema. -/
theorem target_named {urn : String} (hurn : urn ∈ schemas) (path : String) :
    Target.of (urn ++ ":" ++ path) = ⟨some urn, path⟩ := by
  have hfound : ∀ urns : List String, (∀ other ∈ urns, other ∈ schemas) → urn ∈ urns →
      urns.findSome? (fun other => (behindSchema? other (urn ++ ":" ++ path)).map
        fun rest => (other, rest)) = some (urn, path) := by
    intro urns hurns hmem
    induction urns with
    | nil => cases hmem
    | cons other urns ih =>
      rw [List.findSome?_cons]
      by_cases hne : other = urn
      · rw [hne, behindSchema?_named]
        rfl
      · rw [behindSchema?_of_ne hurn (hurns other List.mem_cons_self) hne]
        exact ih (fun o ho => hurns o (List.mem_cons_of_mem _ ho))
          ((List.mem_cons.1 hmem).resolve_left (Ne.symm hne))
  rw [Target.of, hfound schemas (fun _ h => h) hurn]

/-- A path behind the name of the extension. -/
theorem target_extension (path : String) :
    Target.of (Urn.enterpriseUser ++ ":" ++ path) = ⟨some Urn.enterpriseUser, path⟩ :=
  target_named (by decide) path

/-! ## Removals and partial resources -/

/-- What is written at a path stands at the place of its target. -/
theorem documentAt_place {address : String} (hne : (Target.of address).plain ≠ "") (verb : Verb)
    (v : Value) : documentAt verb address v = .ok (writeAt v (Target.of address).place []) := by
  unfold documentAt Target.place Resource.write
  simp only [if_neg hne]
  split
  · obtain ⟨name, rest, hsegments⟩ :=
      List.exists_cons_of_ne_nil (segments_ne_nil (Target.of address).plain)
    rw [hsegments]
    rfl
  · rfl

section

variable {c : Converter} {address : String}

/-- A path outside the extension is looked for as it stands. -/
theorem fieldsFor_outside (hschema : (Target.of address).schema ≠ some Urn.enterpriseUser) :
    c.fieldsFor address =
      if c.Knows (Target.of address).plain then .ok (fieldsBelow c.table (Target.of address).plain)
      else .error (.unsupportedPath address) := by
  unfold fieldsFor candidates
  simp only [hschema, false_and, if_false, List.isEmpty_nil, if_true, List.map_cons, List.map_nil,
    List.find?_cons, List.find?_nil, ← fieldsBelow_ne_nil_iff]
  cases fieldsBelow c.table (Target.of address).plain <;> rfl

/-- A path of the extension is looked for behind the name of the extension, and then as it stands. -/
theorem fieldsFor_inside (hschema : (Target.of address).schema = some Urn.enterpriseUser)
    (hplain : (Target.of address).plain ≠ "") :
    c.fieldsFor address =
      if c.Knows (Urn.enterpriseUser ++ ":" ++ (Target.of address).plain) then
        .ok (fieldsBelow c.table (Urn.enterpriseUser ++ ":" ++ (Target.of address).plain))
      else if c.Knows (Target.of address).plain then
        .ok (fieldsBelow c.table (Target.of address).plain)
      else .error (.unsupportedPath address) := by
  unfold fieldsFor candidates
  simp only [hschema, hplain, and_false, if_false, if_true, List.isEmpty_nil, List.map_cons,
    List.map_nil, List.find?_cons, List.find?_nil, ← fieldsBelow_ne_nil_iff]
  generalize fieldsBelow c.table (Urn.enterpriseUser ++ ":" ++ (Target.of address).plain) = behind
  generalize fieldsBelow c.table (Target.of address).plain = alone
  cases behind <;> cases alone <;> rfl

end

section

variable {c : Converter} {address path : String} (hbracket : '[' ∉ path.toList)

include hbracket

/-- A path outside the extension removes the fields of its entries. -/
theorem fieldsFor_core {schema : Option String} (htarget : Target.of address = ⟨schema, path⟩)
    (hschema : schema ≠ some Urn.enterpriseUser) {field : String} {fields : List String}
    (h : fieldsBelow c.table path = field :: fields) :
    c.fieldsFor address = .ok (field :: fields) := by
  have hplain : (Target.of address).plain = path := by rw [htarget, plain_eq_self hbracket]
  have hknown : c.Knows path := fieldsBelow_ne_nil_iff.1 (h ▸ List.cons_ne_nil field fields)
  rw [fieldsFor_outside (by rw [htarget]; exact hschema), hplain, if_pos hknown, h]

variable (hne : path ≠ "")

include hne

/-- A path of the extension removes the one field of its entries, in this spelling or else without
the name of the extension. -/
theorem fieldsFor_extension_path
    (htarget : Target.of address = ⟨some Urn.enterpriseUser, path⟩) {field : String}
    (h : fieldsBelow c.table (Urn.enterpriseUser ++ ":" ++ path) = [field] ∨
      fieldsBelow c.table (Urn.enterpriseUser ++ ":" ++ path) = [] ∧
        fieldsBelow c.table path = [field]) : c.fieldsFor address = .ok [field] := by
  have hplain : (Target.of address).plain = path := by rw [htarget, plain_eq_self hbracket]
  rw [fieldsFor_inside (by rw [htarget]) (hplain.symm ▸ hne), hplain]
  simp only [← fieldsBelow_ne_nil_iff]
  rcases h with h | ⟨hnil, h⟩
  · rw [h, if_pos (List.cons_ne_nil field [])]
  · rw [hnil, h, if_neg (fun hsome => hsome rfl), if_pos (List.cons_ne_nil field [])]

theorem documentAt_core {schema : Option String} (htarget : Target.of address = ⟨schema, path⟩)
    (hschema : schema ≠ some Urn.enterpriseUser) (verb : Verb) (v : Value) :
    documentAt verb address v = .ok (writeAt v (segments path) []) := by
  have hplain : (Target.of address).plain = path := by rw [htarget, plain_eq_self hbracket]
  rw [documentAt_place (hplain.symm ▸ hne), Target.place, hplain, htarget, if_neg hschema]

theorem documentAt_extension_path
    (htarget : Target.of address = ⟨some Urn.enterpriseUser, path⟩) (verb : Verb) (v : Value) :
    documentAt verb address v = .ok (writeAt v (Urn.enterpriseUser :: segments path) []) := by
  have hplain : (Target.of address).plain = path := by rw [htarget, plain_eq_self hbracket]
  rw [documentAt_place (hplain.symm ▸ hne), Target.place, hplain, htarget, if_pos rfl]

end

end Converter

end Patch

end ScimBridge
