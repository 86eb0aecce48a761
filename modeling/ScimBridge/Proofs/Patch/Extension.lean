import ScimBridge.Proofs.Patch.Addressed

/-!
# Removals in the enterprise extension

A path of the extension is looked for in the table behind the name of the extension, and only then on
its own (`fieldsFor_inside`). Behind the name stand the attributes of the extension
(`knows_behind_iff`). On its own the path may be that of any attribute, so that the removal of
an attribute that the extension does not have removes the core attribute of this name
(`extension_removal_cases`).
-/

namespace ScimBridge

namespace MappingConfig

variable (c : MappingConfig)

/-- The attributes of the extension at or below a path. -/
def extensionBelow (path : String) : List Mapping :=
  c.enterprise.filter fun m => Patch.Converter.covers path m.path

/-- No mapping is spelled as an attribute of the extension without being one. -/
structure Unmistaken : Prop where
  path : ∀ m ∈ c.mappings, ¬ (Urn.enterpriseUser ++ ":").toList <+: m.path.toList
  schema : ∀ m ∈ c.mappings, m.isEnterprise = true → m.schema ≠ Urn.enterpriseUser →
    ¬ (Urn.enterpriseUser ++ ":").toList <+: m.qualifiedPath.toList

variable {c}

theorem mem_extensionBelow {path : String} {m : Mapping} : m ∈ c.extensionBelow path ↔
    m ∈ c.mappings ∧ m.isEnterprise = true ∧ Patch.Converter.covers path m.path = true := by
  rw [extensionBelow, enterprise, List.mem_filter, List.mem_filter, and_assoc]

end MappingConfig

namespace Mapping

variable {m : Mapping}

theorem isEnterprise_of_schema (h : m.schema = Urn.enterpriseUser) : m.isEnterprise = true := by
  rw [isEnterprise, h]
  decide

theorem qualifiedPath_of_schema (h : m.schema = Urn.enterpriseUser) :
    m.qualifiedPath = Urn.enterpriseUser ++ ":" ++ m.path := by
  rw [qualifiedPath, if_pos (isEnterprise_of_schema h), h]

end Mapping

namespace Patch

namespace Converter

/-- The removals of the fields at or below a path. -/
def removalsBelow (c : Converter) (path : String) : List Operation :=
  (fieldsBelow c.table path).map fun field => ⟨.remove, "/" ++ field, none⟩

theorem mem_removalsBelow_iff {c : Converter} {path : String} {o : Operation} :
    o ∈ c.removalsBelow path ↔
      ∃ entry ∈ c.table, covers path entry.1 = true ∧ o = ⟨.remove, "/" ++ entry.2, none⟩ := by
  simp only [removalsBelow, List.mem_map, mem_fieldsBelow_iff]
  constructor
  · rintro ⟨_, ⟨entry, hentry, hcovers, rfl⟩, rfl⟩
    exact ⟨entry, hentry, hcovers, rfl⟩
  · rintro ⟨entry, hentry, hcovers, rfl⟩
    exact ⟨_, ⟨entry, hentry, hcovers, rfl⟩, rfl⟩

/-- Removals below a path are removals of the attributes of some mappings if its entries lead to such
attributes. -/
theorem removalsBelow_among_iff {c : Converter} {path : String} {mappings : List Mapping} :
    (∀ o ∈ c.removalsBelow path, ∃ m ∈ mappings, o = ⟨.remove, "/" ++ m.backendAttribute, none⟩) ↔
      ∀ entry ∈ c.table, covers path entry.1 = true →
        ∃ m ∈ mappings, entry.2 = m.backendAttribute := by
  simp only [mem_removalsBelow_iff]
  constructor
  · intro h entry hentry hcovers
    obtain ⟨m, hm, ho⟩ := h _ ⟨entry, hentry, hcovers, rfl⟩
    exact ⟨m, hm, (String.append_right_inj "/").1 (congrArg Operation.field ho)⟩
  · rintro h _ ⟨entry, hentry, hcovers, rfl⟩
    obtain ⟨m, hm, hfield⟩ := h entry hentry hcovers
    exact ⟨m, hm, by rw [hfield]⟩

/-! ## What a path of the extension covers -/

/-- The extension as a whole covers its attributes. -/
theorem fieldsFor_extension_whole {c : Converter} {path : String}
    (hschema : (Target.of path).schema = some Urn.enterpriseUser)
    (hplain : (Target.of path).plain = "") :
    c.fieldsFor path =
      if c.config.enterprise = [] then .error (.unsupportedPath path)
      else .ok (c.config.enterprise.map (·.backendAttribute)) := by
  split
  · rename_i hnone
    unfold fieldsFor candidates
    simp [hschema, hplain, hnone]
  · rename_i hsome
    exact fieldsFor_extension ⟨hschema, hplain⟩ hsome

/-! ## What stands behind the name of the extension -/

theorem covers_append {urn path tablePath : String} :
    covers (urn ++ path) (urn ++ tablePath) = covers path tablePath := by
  rw [Bool.eq_iff_iff]
  simp only [covers_iff, String.append_right_inj, String.toList_append, List.append_assoc,
    List.prefix_append_right_inj]

variable {config : MappingConfig} {collections : Collections} {path : String}

/-- What stands behind the name of the extension is an attribute of the extension. -/
theorem exists_below_of_covers (hc : config.Unmistaken) {entry : String × String}
    (hentry : entry ∈ (ofUsers collections config).table)
    (hcovers : covers (Urn.enterpriseUser ++ ":" ++ path) entry.1 = true) :
    ∃ m ∈ config.extensionBelow path, m.schema = Urn.enterpriseUser ∧
      entry.2 = m.backendAttribute := by
  have hnamed : (Urn.enterpriseUser ++ ":").toList <+: entry.1.toList := by
    rcases covers_iff.1 hcovers with heq | hbegins
    · exact ⟨path.toList, heq ▸ String.toList_append.symm⟩
    · exact List.IsPrefix.trans ⟨(path ++ ".").toList, by simp⟩ hbegins
  have hget : (ofUsers collections config).table.get? entry.1 = some entry.2 :=
    (Fields.get?_eq_some_iff nodup_table).2 hentry
  rcases table_cases hget with ⟨m, hm, hspelled, hfield⟩ | ⟨-, hreserved⟩
  · have hpath : entry.1 ≠ m.path := fun heq => hc.path m hm (heq ▸ hnamed)
    have hqualified : entry.1 = m.qualifiedPath := hspelled.resolve_left hpath
    have he : m.isEnterprise = true := by
      by_contra hcore
      exact hpath (hqualified.trans (Mapping.qualifiedPath_of_core (by simpa using hcore)))
    have hschema : m.schema = Urn.enterpriseUser := by
      by_contra hne
      exact hc.schema m hm he hne (hqualified ▸ hnamed)
    rw [hqualified, Mapping.qualifiedPath_of_schema hschema, covers_append] at hcovers
    exact ⟨m, MappingConfig.mem_extensionBelow.2 ⟨hm, he, hcovers⟩, hschema, hfield⟩
  · exact absurd (hnamed.subset (by simp)) (reserved_places hreserved).1

/-- Each attribute of the extension at or below a path stands there behind the name of the extension,
and nothing else does. -/
theorem knows_behind_iff (collections : Collections) (hc : config.Unmistaken) :
    (ofUsers collections config).Knows (Urn.enterpriseUser ++ ":" ++ path) ↔
      ∃ m ∈ config.extensionBelow path, m.schema = Urn.enterpriseUser := by
  constructor
  · rintro ⟨entry, hentry, hcovers⟩
    obtain ⟨m, hm, hschema, -⟩ := exists_below_of_covers hc hentry hcovers
    exact ⟨m, hm, hschema⟩
  · rintro ⟨m, hm, hschema⟩
    obtain ⟨hmem, -, hcovers⟩ := MappingConfig.mem_extensionBelow.1 hm
    have hsome : ((ofUsers collections config).table.get? m.qualifiedPath).isSome :=
      isSome_get?_table (Filter.PathTable.mem_mapped.2 ⟨m, hmem, .inr rfl, rfl⟩)
    obtain ⟨field, hfield⟩ := Option.isSome_iff_exists.1 hsome
    refine ⟨_, Fields.mem_of_get? hfield, ?_⟩
    rw [Mapping.qualifiedPath_of_schema hschema, covers_append]
    exact hcovers

/-- What is removed behind the name of the extension are its attributes at or below the path. -/
theorem removalsBelow_behind (hc : config.Unmistaken) :
    ∀ o ∈ (ofUsers collections config).removalsBelow (Urn.enterpriseUser ++ ":" ++ path),
      ∃ m ∈ config.extensionBelow path, o = ⟨.remove, "/" ++ m.backendAttribute, none⟩ := by
  refine removalsBelow_among_iff.2 fun entry hentry hcovers => ?_
  obtain ⟨m, hm, -, hfield⟩ := exists_below_of_covers hc hentry hcovers
  exact ⟨m, hm, hfield⟩

end Converter

open Converter

section

variable (collections : Collections) {config : MappingConfig} {fields : Fields Value}
  {path : String} (hverb : verbOf fields = .ok .remove) (hpath : pathOf fields = .ok path)
  (hschema : (Target.of path).schema = some Urn.enterpriseUser)

include hverb hpath hschema

theorem convert_extension_removal :
    (ofUsers collections config).convert (request [.object fields]) =
      ((ofUsers collections config).fieldsFor path).map fun fields =>
        fields.map fun field => ⟨.remove, "/" ++ field, none⟩ := by
  have hne : path ≠ "" := by
    rintro rfl
    rw [(by decide : Target.of "" = ⟨none, ""⟩)] at hschema
    cases hschema
  exact convert_entry_removal type_ofUsers_ne_group hverb hpath hne

theorem convert_extension_whole (hplain : (Target.of path).plain = "") :
    (ofUsers collections config).convert (request [.object fields]) =
      if config.enterprise = [] then .error (.unsupportedPath path)
      else .ok (extensionRemovals config) := by
  rw [convert_extension_removal collections hverb hpath hschema,
    fieldsFor_extension_whole hschema hplain]
  show Except.map _ (if config.enterprise = [] then _ else _) = _
  split
  · rfl
  · exact congrArg Except.ok List.map_map

theorem convert_extension_below (hplain : (Target.of path).plain ≠ "") :
    (ofUsers collections config).convert (request [.object fields]) =
      if (ofUsers collections config).Knows
          (Urn.enterpriseUser ++ ":" ++ (Target.of path).plain) then
        .ok ((ofUsers collections config).removalsBelow
          (Urn.enterpriseUser ++ ":" ++ (Target.of path).plain))
      else if (ofUsers collections config).Knows (Target.of path).plain then
        .ok ((ofUsers collections config).removalsBelow (Target.of path).plain)
      else .error (.unsupportedPath path) := by
  rw [convert_extension_removal collections hverb hpath hschema,
    fieldsFor_inside hschema hplain, apply_ite (Except.map _), apply_ite (Except.map _)]
  rfl

end

/-- **What is removed through the extension.** The name of the extension alone removes all its
attributes. A path behind it removes what stands in the table at or below it, behind the name of the
extension or else without it. So, if no mapping is spelled like an attribute of the extension that it
is not, only attributes of the extension at or below the path are removed iff there are some, or the
path on its own leads to no others; and where there are none, the removal is refused iff the table does
not know the path on its own either. -/
theorem extension_removal_cases (collections : Collections) {config : MappingConfig}
    {fields : Fields Value} {path : String} (hverb : verbOf fields = .ok .remove)
    (hpath : pathOf fields = .ok path)
    (hschema : (Target.of path).schema = some Urn.enterpriseUser) :
    ((Target.of path).plain = "" →
      (ofUsers collections config).convert (request [.object fields]) =
        if config.enterprise = [] then .error (.unsupportedPath path)
        else .ok (extensionRemovals config)) ∧
    ((Target.of path).plain ≠ "" →
      (ofUsers collections config).convert (request [.object fields]) =
        if (ofUsers collections config).Knows
            (Urn.enterpriseUser ++ ":" ++ (Target.of path).plain) then
          .ok ((ofUsers collections config).removalsBelow
            (Urn.enterpriseUser ++ ":" ++ (Target.of path).plain))
        else if (ofUsers collections config).Knows (Target.of path).plain then
          .ok ((ofUsers collections config).removalsBelow (Target.of path).plain)
        else .error (.unsupportedPath path)) ∧
    ((Target.of path).plain ≠ "" → config.Unmistaken →
      ((∀ operations, (ofUsers collections config).convert (request [.object fields]) =
            .ok operations →
          ∀ o ∈ operations, ∃ m ∈ config.extensionBelow (Target.of path).plain,
            o = ⟨.remove, "/" ++ m.backendAttribute, none⟩) ↔
        (∃ m ∈ config.extensionBelow (Target.of path).plain, m.schema = Urn.enterpriseUser) ∨
          ∀ entry ∈ (ofUsers collections config).table,
            covers (Target.of path).plain entry.1 = true →
              ∃ m ∈ config.extensionBelow (Target.of path).plain,
                entry.2 = m.backendAttribute) ∧
      (config.extensionBelow (Target.of path).plain = [] →
        ((ofUsers collections config).convert (request [.object fields]) =
            .error (.unsupportedPath path) ↔
          ¬ (ofUsers collections config).Knows (Target.of path).plain))) := by
  refine ⟨convert_extension_whole collections hverb hpath hschema,
    convert_extension_below collections hverb hpath hschema,
    fun hplain hc => ⟨?_, fun hnil => ?_⟩⟩
  · rw [convert_extension_below collections hverb hpath hschema hplain,
      ← knows_behind_iff collections hc, ← removalsBelow_among_iff]
    by_cases hbehind : (ofUsers collections config).Knows
        (Urn.enterpriseUser ++ ":" ++ (Target.of path).plain)
    · rw [if_pos hbehind]
      exact iff_of_true (fun _ heq => Except.ok.inj heq ▸ removalsBelow_behind hc) (.inl hbehind)
    · -- what is found without the name of the extension may belong to anything
      rw [if_neg hbehind, or_iff_right hbehind]
      by_cases hknown : (ofUsers collections config).Knows (Target.of path).plain
      · rw [if_pos hknown]
        exact ⟨fun h => h _ rfl, fun h _ heq => Except.ok.inj heq ▸ h⟩
      · rw [if_neg hknown]
        refine iff_of_true (fun _ heq => by cases heq) fun o ho => ?_
        obtain ⟨entry, hentry, hcovers, -⟩ := mem_removalsBelow_iff.1 ho
        exact absurd ⟨entry, hentry, hcovers⟩ hknown
  · have hbehind : ¬ (ofUsers collections config).Knows
        (Urn.enterpriseUser ++ ":" ++ (Target.of path).plain) := by
      rw [knows_behind_iff collections hc, hnil]
      simp
    rw [convert_extension_below collections hverb hpath hschema hplain, if_neg hbehind]
    split
    · rename_i hknown
      exact iff_of_false (by simp) fun h => h hknown
    · rename_i hunknown
      exact iff_of_true rfl hunknown

/-- An attribute of the extension is removed; one that neither it nor a user has is refused. -/
theorem extension_removal_cases_employee :
    let employee : Mapping :=
      { path := "employeeNumber", schema := Urn.enterpriseUser
        backendAttribute := "frIndexedString1" }
    let c : MappingConfig := ⟨[employee], by decide⟩
    let removal (name : String) : Value :=
      entryOf .remove (Urn.enterpriseUser ++ ":" ++ name) none
    (ofUsers {} c).convert (request [removal "employeeNumber"]) =
        .ok [⟨.remove, "/frIndexedString1", none⟩] ∧
      (ofUsers {} c).convert (request [removal "shoeSize"]) =
        .error (.unsupportedPath (Urn.enterpriseUser ++ ":" ++ "shoeSize")) := by
  intro employee c removal
  have hplain : ∀ name : String, '[' ∉ name.toList →
      (Target.of (Urn.enterpriseUser ++ ":" ++ name)).plain = name := fun name hbracket => by
    rw [target_extension, plain_eq_self hbracket]
  have hpath : ∀ name : String, name.toList.all isBareChar = true →
      pathOf [("op", .string "remove"), ("path", .string (Urn.enterpriseUser ++ ":" ++ name))] =
        .ok (Urn.enterpriseUser ++ ":" ++ name) := fun name hname =>
    pathOf_bare (bare_extension hname) _ _
  constructor
  · have hfields : fieldsBelow (ofUsers {} c).table (Urn.enterpriseUser ++ ":" ++ "employeeNumber") =
        ["frIndexedString1"] := by
      simp only [c, employee]
      decide +kernel
    obtain ⟨-, hbelow, -⟩ := extension_removal_cases {} (verbOf_text .remove _)
      (hpath "employeeNumber" (by decide)) (by rw [target_extension])
    rw [hplain _ (by decide)] at hbelow
    refine (hbelow (by decide)).trans ?_
    rw [if_pos (fieldsBelow_ne_nil_iff.1 (by rw [hfields]; simp)), removalsBelow, hfields]
    rfl
  · have hc : c.Unmistaken :=
      { path := by simp only [c, employee]; decide +kernel
        schema := by simp only [c, employee]; decide +kernel }
    have hunknown : ¬ (ofUsers {} c).Knows "shoeSize" := by
      simp only [c, employee]
      decide +kernel
    obtain ⟨-, -, hrefused⟩ := extension_removal_cases {} (verbOf_text .remove _)
      (hpath "shoeSize" (by decide)) (by rw [target_extension])
    rw [hplain _ (by decide)] at hrefused
    exact ((hrefused (by decide) hc).2 (by simp only [c, employee]; decide +kernel)).2 hunknown

/-- The extension has no user names, and yet the user name is removed through it. Writing one through
the extension is refused. -/
theorem extension_removal_leaves :
    MappingConfig.empty.extensionBelow "userName" = [] ∧
    (ofUsers {} .empty).convert
        (request [entryOf .remove (Urn.enterpriseUser ++ ":" ++ "userName") none]) =
      .ok [⟨.remove, "/userName", none⟩] ∧
    (ofUsers {} .empty).convert (request
        [entryOf .replace (Urn.enterpriseUser ++ ":" ++ "userName") (some (.string "dana"))]) =
      .error (.unsupportedPath (Urn.enterpriseUser ++ ":" ++ "userName")) := by
  have hbare : Bare (Urn.enterpriseUser ++ ":" ++ "userName") := bare_extension (by decide)
  have hfields : fieldsBelow (ofUsers {} .empty).table "userName" = ["userName"] := by
    decide +kernel
  refine ⟨rfl, ?_, ?_⟩
  · exact convert_removal type_ofUsers_ne_group hbare (by decide)
      (fieldsFor_extension_path (by decide) (by decide) (target_extension _)
        (.inr ⟨by decide, hfields⟩))
  · exact convert_writing_refused type_ofUsers_ne_group hbare (by decide) (by decide) (by simp)
      (documentAt_extension_path (by decide) (by decide) (target_extension _) _ _) (by decide)

end Patch

end ScimBridge
