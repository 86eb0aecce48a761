import ScimBridge.Proofs.Patch.Binding
import ScimBridge.Proofs.Patch.Qualified
import ScimBridge.Proofs.Schema.Contents

/-!
# The mapping that answers for a path

Several mappings may answer for a path, in either spelling. A lookup finds the first of them and a
schema publishes the first of its own, but a filter asks for the backend attribute of the last one
(`lookup_and_table`). So they speak of different attributes unless the first one and the last one
have the same (`badge_readings_disagree`).

1. `byPath?_eq`, `get?_user`: the lookup and the table, both in terms of the mappings that answer.
2. `queryText_testOf`: what a filter asks for.
3. `lists_of_byPath?`: the mapping that a schema publishes.
-/

namespace ScimBridge

/-! ## The mappings that answer -/

namespace MappingConfig

variable (c : MappingConfig) (path : String)

/-- The mappings that answer for a path, in their order. -/
def answering : List Mapping :=
  c.mappings.filter fun m => path == m.path || path == m.qualifiedPath

/-- A lookup finds the first one. -/
theorem byPath?_eq : c.byPath? path = (c.answering path).head? := List.head?_filter.symm

end MappingConfig

/-! ## The table of a user's paths -/

namespace Filter.PathTable

variable (c : MappingConfig) (path : String)

/-- A path leads to the attribute of the last mapping that answers for it, and without one to its
usual attribute. -/
theorem get?_user : (user c).get? path =
    ((c.answering path).getLast?.map (·.backendAttribute)).or (usualUser.get? path) := by
  rw [user_eq, Fields.get?_putAll, get?_reverse_mapped, MappingConfig.answering,
    List.getLast?_filter]

variable {c path}

/-- Where a lookup finds a mapping, there is a last one, whose attribute is in the table. -/
theorem exists_last {m : Mapping} (h : c.byPath? path = some m) :
    ∃ last, (c.answering path).getLast? = some last ∧
      (user c).get? path = some last.backendAttribute := by
  have hmem : m ∈ c.answering path := List.mem_of_head? (MappingConfig.byPath?_eq c path ▸ h)
  obtain ⟨last, hlast⟩ : ∃ last, (c.answering path).getLast? = some last :=
    ⟨_, List.getLast?_eq_some_getLast (List.ne_nil_of_mem hmem)⟩
  refine ⟨last, hlast, ?_⟩
  rw [get?_user, hlast]
  rfl

end Filter.PathTable

/-! ## Filters -/

namespace Filter

/-- A test of a path that asks for a field of the backend. -/
def testOn (field path : String) : Option (String × String) → String
  | none => field ++ " pr"
  | some (op, value) => field ++ " " ++ op ++ " " ++ Literal.ofValue path value

theorem queryText_testOf {table : PathTable} {path field : String}
    (h : table.get? path = some field) (test : Option (String × String)) :
    (testOf path test).queryText table = testOn field path test := by
  have hname : table.name path = field := by rw [PathTable.name, h, Option.getD_some]
  cases test with
  | none => rw [testOf, queryText, presenceText, hname, testOn]
  | some t => rw [testOf, queryText, comparisonText, hname, testOn]

end Filter

/-! ## Schemas -/

namespace Schema

variable {taken : List String} {ms : List Mapping} {path : String}

/-- Among the definitions of the mappings at the top, the first one of a free name comes in. -/
theorem mem_newcomers_topsOf (hfree : path ∉ taken) (hdot : '.' ∉ path.toList) {m : Mapping}
    (h : ms.find? (·.path == path) = some m) :
    m.definition ∈ newcomers taken (topsOf ms) := by
  obtain ⟨hpath, front, rest, rfl, hfront⟩ := List.find?_eq_some_iff_append.1 h
  obtain rfl : m.path = path := beq_iff_eq.1 hpath
  have hnested : m.isNested = false := by simpa [Mapping.isNested] using hdot
  have htops : topsOf (front ++ m :: rest) = topsOf front ++ m.definition :: topsOf rest := by
    simp [topsOf, List.filter_append, hnested]
  have hname : m.definition.name = m.path := Mapping.leafName_of_not_isNested hnested
  -- in front of it no definition has the name
  have hnot : m.definition.name ∉ taken ++ namesOf (newcomers taken (topsOf front)) := by
    rw [hname, List.mem_append, not_or]
    refine ⟨hfree, fun hmem => ?_⟩
    rw [namesOf_newcomers, List.mem_eraseDups, List.mem_filter, namesOf_topsOf, List.mem_filter,
      List.mem_map] at hmem
    obtain ⟨⟨⟨m', hm', heq⟩, -⟩, -⟩ := hmem
    simpa [heq] using hfront m' hm'
  rw [htops, newcomers_append, newcomers_cons_of_free hnot]
  exact List.mem_append_right _ List.mem_cons_self

/-- Some attributes list a mapping, with sub-attributes that others may have added. -/
def Lists (attributes : List Attribute) (m : Mapping) : Prop :=
  ∃ a ∈ attributes, ∃ ms, Enriches ms m.definition a

/-- Of the mappings of a path that is free, the first one is listed. -/
theorem lists_addMappings (makeParents : Bool) {attributes : List Attribute}
    (hnodup : (namesOf attributes).Nodup) (hfree : path ∉ namesOf attributes)
    (hdot : '.' ∉ path.toList) {m : Mapping} (h : ms.find? (·.path == path) = some m) :
    Lists (addMappings makeParents attributes ms) m := by
  refine ⟨extended (ms.filter Mapping.isNested) m.definition, ?_, _, enriches_extended _ _⟩
  rw [addMappings_eq makeParents ms hnodup]
  refine List.mem_map_of_mem (List.mem_append_left _ (List.mem_append_right _ ?_))
  exact mem_newcomers_topsOf hfree hdot h

variable {c : MappingConfig}

/-- The mapping that answers for a path first is the first one of its path among those of a kind, if
it is of that kind and has the path. -/
theorem find?_filter_of_byPath? {m : Mapping} (h : c.byPath? m.path = some m)
    {kind : Mapping → Bool} (hkind : kind m = true) :
    (c.mappings.filter kind).find? (·.path == m.path) = some m := by
  obtain ⟨-, front, rest, hmappings, hfront⟩ := List.find?_eq_some_iff_append.1 h
  rw [List.find?_filter, List.find?_eq_some_iff_append]
  refine ⟨by simp [hkind], front, rest, hmappings, fun m' hm' => ?_⟩
  have hne : m'.path ≠ m.path := fun heq => by
    have hnot := hfront m' hm'
    simp [heq] at hnot
  simp [hne]

/-- A mapping that answers for its path first is listed in the schema that it belongs to, unless the
path leads into an attribute or is that of another attribute of the core schema. -/
theorem lists_of_byPath? {m : Mapping} (h : c.byPath? m.path = some m)
    (hdot : '.' ∉ m.path.toList) :
    (m.isCoreUser = true → ∀ properties : Option PropertyMap,
      m.path ∉ namesOf coreUser ++ publishedNames (fieldsOf properties) →
      Lists (Schema.attributes .user (properties.map PropertyMap.fields) c) m) ∧
    (m.isEnterprise = true → Lists (addMappings true [] c.enterprise) m) := by
  constructor
  · intro hcore properties hfree
    refine lists_addMappings false (nodup_front properties) ?_ hdot
      (find?_filter_of_byPath? h hcore)
    rwa [namesOf_append, namesOf_propertyAttributes]
  · intro henterprise
    have hnone : (namesOf []).Nodup := List.nodup_nil
    exact lists_addMappings true hnone List.not_mem_nil hdot
      (find?_filter_of_byPath? h henterprise)

end Schema

open ScimBridge.Filter (PathTable parse translate testOf testOn translate_of_parse queryText_testOf)

/-- **What a path stands for.** A lookup finds the first of the mappings that answer for a path. The
table of a user's paths has the attribute of the last one, and a filter asks for it; so both agree
iff the first one and the last one have the same attribute. A schema lists the first one, where the
path is that of the mapping and does not lead into another attribute. -/
theorem lookup_and_table {c : MappingConfig} {path : String} {m : Mapping}
    (h : c.byPath? path = some m) :
    ∃ last, (c.answering path).head? = some m ∧ (c.answering path).getLast? = some last ∧
      (PathTable.user c).get? path = some last.backendAttribute ∧
      (∀ (test : Option (String × String)) (text : String), parse text = .ok (testOf path test) →
        translate (.user c) (some text) = .ok (testOn last.backendAttribute path test)) ∧
      ((PathTable.user c).get? path = some m.backendAttribute ↔
        last.backendAttribute = m.backendAttribute) ∧
      (path = m.path → '.' ∉ path.toList →
        (m.isCoreUser = true → ∀ properties : Option Schema.PropertyMap,
          path ∉ Schema.namesOf Schema.coreUser ++
            Schema.publishedNames (Schema.fieldsOf properties) →
          Schema.Lists (Schema.attributes .user (properties.map Schema.PropertyMap.fields) c) m) ∧
        (m.isEnterprise = true → Schema.Lists (Schema.addMappings true [] c.enterprise) m)) := by
  obtain ⟨last, hlast, htable⟩ := PathTable.exists_last h
  refine ⟨last, MappingConfig.byPath?_eq c path ▸ h, hlast, htable, fun test text htext => ?_, ?_,
    fun hpath hdot => ?_⟩
  · rw [translate_of_parse _ htext, queryText_testOf htable]
  · rw [htable, Option.some.injEq]
  · subst hpath
    exact Schema.lists_of_byPath? h hdot

/-- A mapping of the core schema and one of the extension share a short path. The first one answers,
but the title that a filter asks for is that of the second one. -/
theorem lookup_and_table_titles :
    let core : Mapping :=
      { path := "title", schema := Urn.coreUser, backendAttribute := "jobTitle" }
    let extension : Mapping :=
      { path := "title", schema := Urn.enterpriseUser, backendAttribute := "frIndexedString1" }
    let c : MappingConfig := ⟨[core, extension], by decide⟩
    c.byPath? "title" = some core ∧
      translate (.user c) (some "title eq \"Engineer\"") =
        .ok "frIndexedString1 eq \"Engineer\"" := by
  intro core extension c
  have hfound : c.byPath? "title" = some core := rfl
  obtain ⟨last, -, hlast, -, hfilters, -⟩ := lookup_and_table hfound
  obtain rfl : extension = last := Option.some.inj hlast
  have hparse : parse "title eq \"Engineer\"" =
      .ok (testOf "title" (some ("eq", "\"Engineer\""))) := eq_ok_of_toOption (by decide +kernel)
  exact ⟨hfound, hfilters _ _ hparse⟩

/-- Two mappings of the core schema have one path. The first one answers and is published, with its
attribute in the description, but a filter asks for the attribute of the second one. -/
theorem badge_readings_disagree :
    let first : Mapping :=
      { path := "badge", schema := Urn.coreUser, backendAttribute := "frIndexedString1" }
    let second : Mapping :=
      { path := "badge", schema := Urn.coreUser, backendAttribute := "frIndexedString2" }
    let c : MappingConfig := ⟨[first, second], by decide⟩
    c.byPath? "badge" = some first ∧
      (∃ a ∈ Schema.attributes .user none c, a.name = "badge" ∧
        a.description = .string "Custom mapped attribute from IDM: frIndexedString1") ∧
      (PathTable.user c).get? "badge" = some "frIndexedString2" ∧
      translate (.user c) (some "badge pr") = .ok "frIndexedString2 pr" := by
  intro first second c
  refine ⟨rfl, ?_, by decide, eq_ok_of_toOption (by decide +kernel)⟩
  have hfirst : c.byPath? first.path = some first := rfl
  obtain ⟨a, hmem, ms, henriches⟩ :=
    (Schema.lists_of_byPath? hfirst (by decide)).1 rfl none (by decide)
  have hname : first.definition.name = "badge" := Mapping.leafName_of_not_isNested (by decide)
  have hdescription := congrArg Attribute.description henriches.same
  exact ⟨a, hmem, henriches.name.trans hname, hdescription⟩

end ScimBridge
