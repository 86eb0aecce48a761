import ScimBridge.Proofs.Patch.Addressed
import ScimBridge.Proofs.Resource.Shown

/-!
# Patching a mapped attribute and reading it back

A patch resolves an attribute to be replaced by converting a partial resource, and one to be removed
by the table of paths; a resource shows an attribute at its place. In a patchable configuration the
three agree (`patched_attribute_reads_back`), but for a removal of an attribute whose address is the
beginning of another schema's name (`removal_reaches_other_schema`).
-/

namespace ScimBridge

open Resource

/-! ## The backend -/

/-- A backend that sets the named field of an object when it is replaced, drops it when it is
removed, and touches no other field. -/
structure FieldStore where
  apply : Patch.Operation → Fields Value → Fields Value
  get?_replace : ∀ name v object other,
    (apply ⟨.replace, "/" ++ name, some v⟩ object).get? other =
      if other = name then some v else object.get? other
  get?_remove : ∀ name object other,
    (apply ⟨.remove, "/" ++ name, none⟩ object).get? other =
      if other = name then none else object.get? other

namespace FieldStore

/-- Apply operations one after the other. -/
def run (store : FieldStore) (operations : List Patch.Operation) (object : Fields Value) :
    Fields Value :=
  Patch.applyAll store.apply operations object

/-- The name of a field behind the slash. -/
def nameOf (field : String) : String := String.ofList (field.toList.drop 1)

theorem nameOf_pointer (name : String) : nameOf ("/" ++ name) = name := by
  rw [nameOf, String.toList_append]
  simp

/-- Fields that are put and erased. -/
def ofFields : FieldStore where
  apply o object :=
    match o.verb, o.value with
    | .replace, some v => object.put (nameOf o.field) v
    | .remove, _ => object.erase (nameOf o.field)
    | _, _ => object
  get?_replace name v object other := by
    simp only [nameOf_pointer, Fields.get?_put]
  get?_remove name object other := by
    simp only [nameOf_pointer, Fields.get?_erase]

end FieldStore

/-! ## Reading back -/

namespace Patch

open User

/-- A resource after a patch of one attribute: the attribute is what it was set to, and everything
else is as before, but for the schemas, which name the extension iff one of its attributes is there.
-/
structure ReadsBack (c : MappingConfig) (m : Mapping) (v? : Option Value)
    (before after : Fields Value) : Prop where
  here : at? m.place after = v?
  mapped : ∀ m' ∈ c.mappings, m' ≠ m → at? m'.place after = at? m'.place before
  usual : ∀ p ∈ usualPlaces, p ≠ ["schemas"] → at? p after = at? p before
  schemas : at? ["schemas"] after = some (.texts (Urn.coreUser ::
    if c.mappings.any fun m' => m'.isEnterprise && (at? m'.place after).isSome then
      [Urn.enterpriseUser] else []))

variable {c : MappingConfig} {m : Mapping} {baseUrl : String}
  {user patched before after : Fields Value}

theorem readsBack_of_shows (hc : c.Patchable) (hm : m ∈ c.mappings)
    (hbefore : Shows baseUrl c user before) (hafter : Shows baseUrl c patched after)
    {v? : Option Value} (hv : v?.bind Value.nonNull? = v?)
    (hget : ∀ name, patched.get? name = if name = m.backendAttribute then v? else user.get? name) :
    ReadsBack c m v? before after where
  here := by
    rw [hafter.mapped m hm, Value.given?_eq, hget, if_pos rfl, hv]
  mapped m' hm' hne := by
    have hother : m'.backendAttribute ≠ m.backendAttribute :=
      fun heq => hne (hc.eq_of_attribute hm hm' heq)
    rw [hafter.mapped m' hm', hbefore.mapped m' hm', Value.given?_eq, hget, if_neg hother,
      Value.given?_eq]
  usual p hp hne := by
    have hsame : (usualValues baseUrl c patched).tail = (usualValues baseUrl c user).tail := by
      refine usualValues_congr (fun name hname => ?_) baseUrl
      rw [hget, if_neg]
      rintro rfl
      exact hc.outside m hm hname
    obtain ⟨entry, hentry, rfl⟩ : ∃ entry ∈ usualValues baseUrl c user, entry.1 = p :=
      List.mem_map.1 hp
    have htail : entry ∈ (usualValues baseUrl c user).tail :=
      (List.mem_cons.1 hentry).resolve_left fun heq => hne (heq ▸ rfl)
    rw [hbefore.usual entry hentry, hafter.usual entry (List.mem_of_mem_tail (hsame ▸ htail))]
  schemas := by
    have huses : usesEnterprise c patched =
        c.mappings.any fun m' => m'.isEnterprise && (at? m'.place after).isSome := by
      rw [Bool.eq_iff_iff]
      simp only [usesEnterprise, List.any_eq_true]
      refine exists_congr fun m' => and_congr_right fun hm' => ?_
      rw [hafter.mapped m' hm']
    rw [hafter.usual (["schemas"], some (schemasOf c patched)) List.mem_cons_self, schemasOf,
      huses]

/-- Where attributes stand apart and are kept in backend attributes of their own, a mapped attribute
that is replaced is read back and nothing else changes. So it is with one that is removed, where no
other schema looks like a path below it. -/
theorem patched_attribute_reads_back (hc : c.Patchable) (store : FieldStore)
    (collections : Collections) (hm : m ∈ c.mappings) (baseUrl : String) (user : Fields Value) :
    ∃ before, ofBackend baseUrl c user = .ok before ∧
      (∀ v, v ≠ .null → ∃ operations after,
        (Converter.ofUsers collections c).convert
          (request [entryOf .replace m.address (some v)]) = .ok operations ∧
        ofBackend baseUrl c (store.run operations user) = .ok after ∧
        ReadsBack c m (some v) before after) ∧
      (c.Clear m → ∃ operations after,
        (Converter.ofUsers collections c).convert
          (request [entryOf .remove m.address none]) = .ok operations ∧
        ofBackend baseUrl c (store.run operations user) = .ok after ∧
        ReadsBack c m none before after) := by
  obtain ⟨before, hbefore, hshows⟩ := shows_ofBackend hc.separate baseUrl user
  refine ⟨before, hbefore, fun v hv => ?_, fun hclear => ?_⟩
  · obtain ⟨after, hafter, hshows'⟩ := shows_ofBackend hc.separate baseUrl
      (store.run [⟨.replace, "/" ++ m.backendAttribute, some v⟩] user)
    exact ⟨_, after, convert_replace hc collections hm hv, hafter,
      readsBack_of_shows hc hm hshows hshows' (Value.nonNull?_of_ne hv)
        fun name => store.get?_replace _ v user name⟩
  · obtain ⟨after, hafter, hshows'⟩ := shows_ofBackend hc.separate baseUrl
      (store.run [⟨.remove, "/" ++ m.backendAttribute, none⟩] user)
    exact ⟨_, after, convert_remove hc collections hm hclear, hafter,
      readsBack_of_shows hc hm hshows hshows' rfl fun name => store.get?_remove _ user name⟩

/-- An attribute of the extension next to a nested one of the core resource. -/
theorem patched_attribute_reads_back_nested :
    let badge : Mapping :=
      { path := "custom.badge", schema := Urn.coreUser, backendAttribute := "frIndexedString1" }
    let manager : Mapping :=
      { path := "manager.value", schema := Urn.enterpriseUser,
        backendAttribute := "frIndexedString2" }
    let c : MappingConfig := ⟨[badge, manager], by decide⟩
    let user : Fields Value := [("_id", .string "u1"), ("frIndexedString1", .int 7)]
    c.Patchable ∧ c.Clear manager ∧ ∃ before, ofBackend "/scim/v2" c user = .ok before ∧
      (∀ v, v ≠ .null → ∃ operations after,
        (Converter.ofUsers {} c).convert
          (request [entryOf .replace manager.address (some v)]) = .ok operations ∧
        ofBackend "/scim/v2" c (FieldStore.ofFields.run operations user) = .ok after ∧
        ReadsBack c manager (some v) before after) ∧
      ∃ operations after,
        (Converter.ofUsers {} c).convert
          (request [entryOf .remove manager.address none]) = .ok operations ∧
        ofBackend "/scim/v2" c (FieldStore.ofFields.run operations user) = .ok after ∧
        ReadsBack c manager none before after := by
  intro badge manager c user
  have hplain : ∀ m ∈ c.mappings, PlainPath m.path := fun m hm => by
    rcases List.mem_pair.1 hm with rfl | rfl <;> exact plainPath_of_all (by decide)
  have hc : c.Patchable := ⟨hplain, by decide, by decide, by decide, by decide⟩
  have hclear : c.Clear manager := by unfold MappingConfig.Clear; decide
  obtain ⟨before, hbefore, hreplace, hremove⟩ :=
    patched_attribute_reads_back hc .ofFields {} (by simp [c] : manager ∈ c.mappings) "/scim/v2" user
  exact ⟨hc, hclear, before, hbefore, hreplace, hremove hclear⟩

/-- A schema that begins with the path of another attribute and a dot: removing the other attribute
removes the attribute of the schema as well, and it is not read back. -/
theorem removal_reaches_other_schema :
    let costCenter : Mapping :=
      { path := "costCenter", schema := Urn.coreUser, backendAttribute := "frIndexedString1" }
    let badge : Mapping :=
      { path := "badge", schema := "costCenter.extension:enterprise:2.0:User",
        backendAttribute := "frIndexedString2" }
    let c : MappingConfig := ⟨[costCenter, badge], by decide⟩
    let user : Fields Value := [("_id", .string "u1"), ("frIndexedString1", .string "CC-7"),
      ("frIndexedString2", .string "B-12")]
    let operations : List Operation :=
      [⟨.remove, "/frIndexedString1", none⟩, ⟨.remove, "/frIndexedString2", none⟩]
    c.Patchable ∧
      (Converter.ofUsers {} c).convert (request [entryOf .remove costCenter.address none]) =
        .ok operations ∧
      ∀ store : FieldStore, ∃ before after, ofBackend "/scim/v2" c user = .ok before ∧
        ofBackend "/scim/v2" c (store.run operations user) = .ok after ∧
        at? badge.place before = some (.string "B-12") ∧ at? badge.place after = none := by
  intro costCenter badge c user operations
  have hplain : ∀ m ∈ c.mappings, PlainPath m.path := fun m hm => by
    rcases List.mem_pair.1 hm with rfl | rfl <;> exact plainPath_of_all (by decide)
  have hc : c.Patchable := ⟨hplain, by decide, by decide, by decide, by decide⟩
  have hbelow : Converter.fieldsBelow (Converter.ofUsers {} c).table "costCenter" =
      ["frIndexedString1", "frIndexedString2"] := by decide
  have hfields : (Converter.ofUsers {} c).fieldsFor "costCenter" =
      .ok ["frIndexedString1", "frIndexedString2"] :=
    Converter.fieldsFor_core (by decide) (Converter.target_plain (by decide))
      (by decide) hbelow
  refine ⟨hc, ?_, fun store => ?_⟩
  · have haddress : costCenter.address = "costCenter" := if_neg (by decide)
    have hbare : Bare "costCenter" := bare_of_all (by decide)
    rw [haddress]
    exact Converter.convert_removal Converter.type_ofUsers_ne_group hbare (by decide) hfields
  · obtain ⟨before, hbefore, hshows⟩ := shows_ofBackend hc.separate "/scim/v2" user
    obtain ⟨after, hafter, hshows'⟩ :=
      shows_ofBackend hc.separate "/scim/v2" (store.run operations user)
    have hmem : badge ∈ c.mappings := by simp [c]
    refine ⟨before, after, hbefore, hafter, ?_, ?_⟩
    · have hgiven : Value.given? user "frIndexedString2" = some (.string "B-12") := rfl
      exact (hshows.mapped badge hmem).trans hgiven
    · have hnone : (store.run operations user).get? "frIndexedString2" = none :=
        (store.get?_remove "frIndexedString2" _ "frIndexedString2").trans (if_pos rfl)
      rw [hshows'.mapped badge hmem, Value.given?_eq, hnone]
      rfl

end Patch

end ScimBridge
