import ScimBridge.Proofs.Patch.Coverage
import ScimBridge.Proofs.Patch.Requests
import ScimBridge.Proofs.Resource.Slots

/-!
# Paths that the table does not know

The table of a converter knows a path if it has an entry at or below it. Nothing is taken from a place
whose path is not known, nor from below it (`not_prefix_of_unknown`). So what is written there should
be refused. It is, unless an attribute is taken from above the place: the partial resource then holds
an object for it, and this object is written, or its truth value (`unknown_path_cases`). A path that is
the name of a schema and nothing else stands for the attributes of the schema.
-/

namespace ScimBridge

open Resource

namespace Patch

/-- The partial resource of a value for a whole schema. -/
def Target.whole (t : Target) (members : Fields Value) : Fields Value :=
  if t.schema = some Urn.enterpriseUser then [(Urn.enterpriseUser, .object members)] else members

namespace Converter

variable {collections : Collections} {config : MappingConfig}

/-! ## Slots have entries -/

theorem exists_entry_of_isSome {path : String}
    (h : ((ofUsers collections config).table.get? path).isSome) :
    ∃ entry ∈ (ofUsers collections config).table, entry.1 = path := by
  obtain ⟨field, hfield⟩ := Option.isSome_iff_exists.1 h
  exact ⟨(path, field), Fields.mem_of_get? hfield, rfl⟩

/-- What is taken from a resource has an entry in the table, under its place or, in the extension,
under the rest of its place. -/
theorem exists_entry_of_slot (collections : Collections) {s : User.Slot} (hs : s ∈ User.slots config) :
    ∃ entry ∈ (ofUsers collections config).table,
      s.place = segments entry.1 ∨ s.place = Urn.enterpriseUser :: segments entry.1 := by
  have hreserved : ∀ s ∈ User.coreSlots ++ User.passedThrough.map User.Slot.same,
      ∃ entry ∈ reserved, s.place = segments entry.1 := by decide
  rcases List.mem_append.1 hs with hs | hs
  · have hmem : s ∈ User.coreSlots ++ User.passedThrough.map User.Slot.same :=
      List.mem_append.2 ((List.mem_append.1 hs).imp_right fun hpassed =>
        List.map_subset _ List.filter_sublist.subset hpassed)
    obtain ⟨entry, hentry, hplace⟩ := hreserved s hmem
    have hsome : (Fields.get? reserved entry.1).isSome :=
      Fields.isSome_get?_iff.2 (List.mem_map_of_mem hentry)
    have hfound : ((ofUsers collections config).table.get? entry.1).isSome := by
      rw [get?_table, Option.isSome_or, hsome, Bool.or_true]
    obtain ⟨found, hfound, hpath⟩ := exists_entry_of_isSome hfound
    exact ⟨found, hfound, .inl (hpath ▸ hplace)⟩
  · obtain ⟨m, hm, rfl⟩ := List.mem_map.1 hs
    obtain ⟨found, hfound, hpath⟩ := exists_entry_of_isSome (isSome_get?_table
      (Filter.PathTable.mem_mapped.2 ⟨m, hm, .inl rfl, rfl⟩))
    refine ⟨found, hfound, ?_⟩
    rw [User.Slot.place_mapped, hpath]
    cases he : m.isEnterprise with
    | false => exact .inl (Mapping.place_of_core he)
    | true => exact .inr (Mapping.place_of_enterprise he)

/-- Nothing is taken from an unknown place or from below it. -/
theorem not_prefix_of_unknown {t : Target} (h : ¬ (ofUsers collections config).Knows t.plain) :
    ∀ s ∈ User.slots config, ¬ t.place <+: s.place := by
  intro s hs hprefix
  obtain ⟨entry, hentry, hplace⟩ := exists_entry_of_slot collections hs
  have hbelow : ¬ segments t.plain <+: segments entry.1 := fun hbegins =>
    h ⟨entry, hentry, covers_iff_segments.2 hbegins⟩
  -- no name of a path is that of the extension, so both places lie in it or both outside
  unfold Target.place at hprefix
  split at hprefix
  · rcases hplace with hplace | hplace <;> rw [hplace] at hprefix
    · exact (Mapping.apart_enterpriseUser entry.1 _).1 hprefix
    · exact hbelow (List.cons_prefix_cons.1 hprefix).2
  · rcases hplace with hplace | hplace <;> rw [hplace] at hprefix
    · exact hbelow hprefix
    · exact (Mapping.apart_enterpriseUser t.plain _).2 hprefix

/-! ## Whole schemas -/

section

variable {path : String} (hplain : (Target.of path).plain = "") (verb : Verb)

include hplain

/-- A path without names of attributes is written as the object of its schema. -/
theorem documentAt_whole (members : Fields Value) :
    documentAt verb path (.object members) = .ok ((Target.of path).whole members) :=
  if_pos hplain

theorem documentAt_not_object {v : Value} (h : ∀ members, v ≠ .object members) :
    documentAt verb path v = .error (.schemaValueNotObject verb) := by
  refine (if_pos hplain).trans ?_
  cases v with
  | object members => exact absurd rfl (h members)
  | _ => rfl

end

/-! ## Unknown paths -/

/-- A value at an unknown path is refused, or it is written into attributes that are taken from above
the place of the path. -/
theorem attributeOperations_unknown {path : String} (hplain : (Target.of path).plain ≠ "")
    (hunknown : ¬ (ofUsers collections config).Knows (Target.of path).plain) (verb : Verb) {v : Value}
    (hv : v ≠ .null) :
    (∀ s ∈ User.slots config, ¬ s.place <+: (Target.of path).place) ∧
      (ofUsers collections config).attributeOperations verb path v = .error (.unsupportedPath path) ∨
    (∃ s ∈ User.slots config, s.place <+: (Target.of path).place) ∧
      ∃ operations, (ofUsers collections config).attributeOperations verb path v = .ok operations ∧
        operations ≠ [] ∧ ∀ o ∈ operations, o.verb = verb ∧ ∃ s ∈ User.slots config,
          s.place <+: (Target.of path).place ∧ o.field = "/" ++ s.field := by
  have hbelow := not_prefix_of_unknown hunknown
  have hplace := (Target.of path).place_ne_nil
  have hnil := User.toBackend_writeAt_eq_nil_iff hplace hv hbelow
  rw [attributeOperations_of (documentAt_place hplain verb v), attributesOf_ofUsers]
  by_cases habove : ∃ s ∈ User.slots config, s.place <+: (Target.of path).place
  · have hsome : User.toBackend config (writeAt v (Target.of path).place []) ≠ [] := by
      simpa [hnil] using habove
    refine .inr ⟨habove, _, if_neg hsome, by simpa [operationsOf] using hsome, ?_⟩
    refine List.forall_mem_map.2 fun e he => ⟨rfl, ?_⟩
    obtain ⟨s, hs, hprefix, hfield⟩ := User.exists_slot_of_mem_toBackend_writeAt hplace hv hbelow he
    exact ⟨s, hs, hprefix, hfield ▸ rfl⟩
  · have hnone : ∀ s ∈ User.slots config, ¬ s.place <+: (Target.of path).place := by
      simpa using habove
    exact .inl ⟨hnone, if_pos (hnil.2 hnone)⟩

end Converter

open Converter

section

variable (collections : Collections) {config : MappingConfig} {fields : Fields Value} {verb : Verb}
  {path : String} {v : Value}

/-- **What is written at an unknown path.** The entry is refused iff no attribute is taken from above
the place of the path. Else it is converted, and writes such attributes. If it is refused, then so is
every request that has it among its entries. The name of a schema on its own is no path of an
attribute: it takes an object, whose attributes are written, if there are any. -/
theorem unknown_path_cases (hverb : verbOf fields = .ok verb) (hwriting : verb ≠ .remove)
    (hpath : pathOf fields = .ok path) (hne : path ≠ "")
    (hvalue : fields.get? "value" = some v) (hv : v ≠ .null)
    (hunknown : ¬ (ofUsers collections config).Knows (Target.of path).plain) :
    ((Target.of path).plain ≠ "" →
      (∀ s ∈ User.slots config, ¬ s.place <+: (Target.of path).place) ∧
        (ofUsers collections config).convert (request [.object fields]) =
          .error (.unsupportedPath path) ∨
      (∃ s ∈ User.slots config, s.place <+: (Target.of path).place) ∧
        ∃ operations, (ofUsers collections config).convert (request [.object fields]) =
            .ok operations ∧ operations ≠ [] ∧
          ∀ o ∈ operations, o.verb = verb ∧ ∃ s ∈ User.slots config,
            s.place <+: (Target.of path).place ∧ o.field = "/" ++ s.field) ∧
    ((Target.of path).plain = "" →
      (∀ members, v = .object members →
        (ofUsers collections config).convert (request [.object fields]) =
          if User.toBackend config ((Target.of path).whole members) = [] then
            .error (.unsupportedPath path)
          else .ok (operationsOf verb (User.toBackend config ((Target.of path).whole members)))) ∧
      ((∀ members, v ≠ .object members) →
        (ofUsers collections config).convert (request [.object fields]) =
          .error (.schemaValueNotObject verb))) ∧
    ∀ fault, (ofUsers collections config).convert (request [.object fields]) = .error fault →
      ∀ body entries, entriesOf body = .ok entries → .object fields ∈ entries →
        ∃ first, (ofUsers collections config).convert body = .error first := by
  have hentry := convert_entry_writing (c := ofUsers collections config) type_ofUsers_ne_group
    hverb hwriting hpath hne hvalue hv
  rw [hentry]
  refine ⟨fun hplain => attributeOperations_unknown hplain hunknown verb hv,
    fun hplain => ⟨?_, fun hobject => ?_⟩, fun fault hfault body entries hentries hmem => ?_⟩
  · rintro members rfl
    exact attributeOperations_of (documentAt_whole hplain verb members)
  · rw [attributeOperations, documentAt_not_object hplain verb hobject]
    rfl
  · rw [← hentry, convert_single] at hfault
    exact convert_fails_iff.2 (.inr ⟨entries, hentries, _, hmem, fault, hfault⟩)

/-- Of an address that is selected by a filter, nothing but the value is taken. -/
theorem unknown_path_cases_display :
    (ofUsers {} .empty).convert
        (request [entryOf .replace "emails[primary].display" (some (.string "Dana"))]) =
      .error (.unsupportedPath "emails[primary].display") := by
  have htarget : Target.of "emails[primary].display" = ⟨none, "emails[primary].display"⟩ :=
    target_plain (by decide)
  have hplain : (Target.of "emails[primary].display").plain = "emails.display" := by
    rw [htarget, Target.plain]
    simp [withoutFilters, afterBracket?]
  have hplace : (Target.of "emails[primary].display").place = ["emails", "display"] := by
    rw [Target.place, hplain, htarget]
    decide
  have hunknown : ¬ (ofUsers {} .empty).Knows (Target.of "emails[primary].display").plain := by
    rw [hplain]
    decide
  have hpath : pathOf [("op", .string "replace"), ("path", .string "emails[primary].display"),
      ("value", .string "Dana")] = .ok "emails[primary].display" :=
    pathOf_bare (bare_of_all (by decide)) _ _
  obtain ⟨hcases, -, -⟩ := unknown_path_cases {} (verbOf_text .replace _)
    (by decide : Verb.replace ≠ .remove) hpath (by decide) rfl (by simp) hunknown
  rcases hcases (by rw [hplain]; decide) with ⟨-, hrefused⟩ | ⟨habove, -⟩
  · exact hrefused
  · rw [hplace] at habove
    exact absurd habove (by decide)

end

/-- Below the name of a user and below the status, nothing is known and yet something is written: an
object takes the place of the name, and false activates the account. -/
theorem unknown_path_written :
    (¬ (ofUsers {} .empty).Knows (Target.of "userName.x").plain ∧
      (ofUsers {} .empty).convert
          (request [entryOf .replace "userName.x" (some (.string "v"))]) =
        .ok [⟨.replace, "/userName", some (.object [("x", .string "v")])⟩]) ∧
    ¬ (ofUsers {} .empty).Knows (Target.of "active.x").plain ∧
      (ofUsers {} .empty).convert
          (request [entryOf .replace "active.x" (some (.bool false))]) =
        .ok [⟨.replace, "/accountStatus", some (.string "active")⟩] := by
  have htarget : ∀ path ∈ ["userName.x", "active.x"], Target.of path = ⟨none, path⟩ := by decide
  have hplain : ∀ path ∈ ["userName.x", "active.x"], (Target.of path).plain = path := by
    intro path hpath
    rw [htarget path hpath,
      plain_eq_self ((by decide : ∀ path ∈ ["userName.x", "active.x"], '[' ∉ path.toList) path hpath)]
  have hunknown : ∀ path ∈ ["userName.x", "active.x"], ¬ (ofUsers {} .empty).Knows path := by decide
  refine ⟨⟨?_, ?_⟩, ?_, ?_⟩
  · rw [hplain _ (by simp)]
    exact hunknown _ (by simp)
  · exact convert_writing type_ofUsers_ne_group (bare_of_all (by decide)) (by decide) (by decide)
      (by simp) (documentAt_core (by decide) (by decide) (htarget _ (by simp)) (by simp) _ _) (by decide)
  · rw [hplain _ (by simp)]
    exact hunknown _ (by simp)
  · exact convert_writing type_ofUsers_ne_group (bare_of_all (by decide)) (by decide) (by decide)
      (by simp) (documentAt_core (by decide) (by decide) (htarget _ (by simp)) (by simp) _ _) (by decide)

end Patch

end ScimBridge
