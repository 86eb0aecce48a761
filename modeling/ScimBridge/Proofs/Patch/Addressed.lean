import Mathlib.Data.List.Nodup
import ScimBridge.Proofs.Patch.Coverage
import ScimBridge.Proofs.Patch.Requests
import ScimBridge.Proofs.Resource.Begun
import ScimBridge.Proofs.Resource.Stored

/-!
# Patching mapped attributes

In a patchable configuration attributes stand apart and are kept in backend attributes of their own.
Each of them has an address: its path, behind the name of the extension if it belongs to it. A value
that is written there is converted into its backend attribute alone (`convert_replace`). A removal
finds the address in the table of paths, and as long as no other schema begins with it, nothing but
its backend attribute is removed (`convert_remove`).
-/

namespace ScimBridge

open Resource

/-! ## Configurations -/

/-- A path of plain names, behind which no schema, filter or pointer is meant. -/
def PlainPath (path : String) : Prop :=
  ∀ ch ∈ path.toList, ch ≠ ':' ∧ ch ≠ '[' ∧ ch ≠ '/' ∧ isBlank ch = false

/-- The characters of a plain path can be checked one by one. -/
theorem plainPath_of_all {path : String} (h : path.toList.all (fun ch =>
    ch != ':' && (ch != '[' && (ch != '/' && !isBlank ch))) = true) : PlainPath path :=
  fun ch hch => by simpa using List.all_eq_true.1 h ch hch

namespace Mapping

variable (m : Mapping)

/-- How a patch addresses the attribute. -/
def address : String :=
  if m.isEnterprise then Urn.enterpriseUser ++ ":" ++ m.path else m.path

/-- The spellings under which the attribute is looked for when it is removed. -/
def spellings : List String :=
  if m.isEnterprise then
    (Urn.enterpriseUser ++ ":" ++ m.path) :: if m.schema = Urn.enterpriseUser then [] else [m.path]
  else [m.path]

theorem path_ne_empty {m : Mapping} (h : m.isComplete = true) : m.path ≠ "" := by
  simp only [isComplete, Bool.and_eq_true, bne_iff_ne] at h
  exact h.1.1

end Mapping

namespace MappingConfig

/-- Paths are plain and stand apart from each other, whatever their location, and from the usual
places; backend attributes are distinct, and none is read without a mapping. -/
structure Patchable (c : MappingConfig) : Prop where
  plain : ∀ m ∈ c.mappings, PlainPath m.path
  apart : c.mappings.Pairwise fun m m' =>
    Apart (Resource.segments m.path) (Resource.segments m'.path)
  usual : ∀ m ∈ c.mappings, ∀ p ∈ User.usualPlaces, Apart (Resource.segments m.path) p
  distinct : (c.mappings.map (·.backendAttribute)).Nodup
  outside : ∀ m ∈ c.mappings, m.backendAttribute ∉ User.readNames .empty

/-- No attribute of another schema looks as if it lay below the attribute of a mapping. -/
def Clear (c : MappingConfig) (m : Mapping) : Prop :=
  ∀ m' ∈ c.mappings, m'.isEnterprise = true → m'.backendAttribute ≠ m.backendAttribute →
    ∀ spelling ∈ m.spellings, ¬ (spelling ++ ".").toList <+: m'.schema.toList

variable {c : MappingConfig}

theorem Patchable.separate (h : c.Patchable) : c.Separate where
  apart := by
    refine h.apart.imp ?_
    intro m m' hapart _
    exact hapart
  usual m hm _ := h.usual m hm
  passed m hm _ hname := by
    have hplace := h.usual m hm _ (User.mem_usualPlaces_of_passed hname)
    have hsegments : ∀ name ∈ User.passedThrough, Resource.segments name = [name] := by decide
    rw [hsegments _ hname] at hplace
    exact hplace.1 List.prefix_rfl

/-- Mappings of one backend attribute are one. -/
theorem Patchable.eq_of_attribute (h : c.Patchable) {m m' : Mapping} (hm : m ∈ c.mappings)
    (hm' : m' ∈ c.mappings) (heq : m'.backendAttribute = m.backendAttribute) : m' = m :=
  List.inj_on_of_nodup_map h.distinct hm' hm heq

/-- Mappings whose paths do not stand apart are one. -/
theorem Patchable.eq_of_prefix (h : c.Patchable) {m m' : Mapping} (hm : m ∈ c.mappings)
    (hm' : m' ∈ c.mappings)
    (hbegins : Resource.segments m.path <+: Resource.segments m'.path) : m = m' :=
  (Mapping.eq_or_apart_of_pairwise h.apart hm hm').resolve_right fun hapart => hapart.1 hbegins

end MappingConfig

/-! ## What a removal finds -/

namespace Patch

namespace Converter

variable {c : MappingConfig} {collections : Collections}

/-- Paths that belong to no mapping have no colon, and lie at or below a usual place. -/
theorem reserved_places {path field : String} (h : Fields.get? reserved path = some field) :
    ':' ∉ path.toList ∧ ∃ p ∈ User.usualPlaces, p <+: segments path :=
  (by decide : ∀ entry ∈ reserved, ':' ∉ entry.1.toList ∧
    ∃ p ∈ User.usualPlaces, p <+: segments entry.1) _ (Fields.mem_of_get? h)

/-- An entry of the table is found under the path of a mapping, or under that of an enterprise
mapping behind the name of its schema, or it belongs to no mapping. -/
theorem entry_cases {tablePath field : String}
    (hget : (ofUsers collections c).table.get? tablePath = some field) :
    (∃ m ∈ c.mappings, tablePath = m.path ∧ field = m.backendAttribute) ∨
    (∃ m ∈ c.mappings, m.isEnterprise = true ∧ field = m.backendAttribute ∧
      tablePath.toList = m.schema.toList ++ ':' :: m.path.toList) ∨
    ':' ∉ tablePath.toList ∧ ∃ p ∈ User.usualPlaces, p <+: segments tablePath := by
  rcases table_cases hget with ⟨m, hm, hspelled, hfield⟩ | ⟨-, hreserved⟩
  · rcases hspelled with hpath | hqualified
    · exact .inl ⟨m, hm, hpath, hfield⟩
    · cases he : m.isEnterprise with
      | false =>
        rw [Mapping.qualifiedPath_of_core he] at hqualified
        exact .inl ⟨m, hm, hqualified, hfield⟩
      | true =>
        refine .inr (.inl ⟨m, hm, he, hfield, ?_⟩)
        rw [hqualified, Mapping.toList_qualifiedPath he]
  · exact .inr (.inr (reserved_places hreserved))

section

variable (hc : c.Patchable) {m : Mapping} (hm : m ∈ c.mappings) {tablePath field : String}
  (hget : (ofUsers collections c).table.get? tablePath = some field)

include hc hm hget

/-- The path of a mapping covers its own entry, and only entries of attributes whose schema begins
with the path. -/
theorem attribute_of_covered_path (hclear : ∀ m' ∈ c.mappings, m'.isEnterprise = true →
      m'.backendAttribute ≠ m.backendAttribute → ¬ (m.path ++ ".").toList <+: m'.schema.toList)
    (hcovers : covers m.path tablePath = true) : field = m.backendAttribute := by
  have hsegments := segments_of_covers hcovers
  have hcolon : ':' ∉ m.path.toList := fun hmem => (hc.plain m hm ':' hmem).1 rfl
  rcases entry_cases hget with ⟨m', hm', rfl, rfl⟩ | ⟨m', hm', he, rfl, hspelling⟩ |
    ⟨-, p, hp, hbegins⟩
  · rw [hc.eq_of_prefix hm hm' hsegments]
  · by_contra hne
    rcases covers_iff.1 hcovers with rfl | hbegins
    · exact hcolon (hspelling ▸ by simp)
    · rw [hspelling] at hbegins
      exact hclear m' hm' he hne (prefix_before_separator hbegins (by simpa using hcolon))
  · have hapart := hc.usual m hm p hp
    rcases List.prefix_or_prefix_of_prefix hsegments hbegins with h | h
    · exact absurd h hapart.1
    · exact absurd h hapart.2

/-- Behind the name of the extension, the path of a mapping covers its own entry, and only entries of
attributes whose schema begins so. -/
theorem attribute_of_covered_behind (hclear : ∀ m' ∈ c.mappings, m'.isEnterprise = true →
      m'.backendAttribute ≠ m.backendAttribute →
      ¬ (Urn.enterpriseUser ++ ":" ++ m.path ++ ".").toList <+: m'.schema.toList)
    (hcovers : covers (Urn.enterpriseUser ++ ":" ++ m.path) tablePath = true) :
    field = m.backendAttribute := by
  have hspelling : ∀ path : String, (Urn.enterpriseUser ++ ":" ++ path).toList =
      Urn.enterpriseUser.toList ++ ':' :: path.toList := fun path => by simp
  have hcolon : ∀ m' ∈ c.mappings, ':' ∉ m'.path.toList :=
    fun m' hm' hmem => (hc.plain m' hm' ':' hmem).1 rfl
  have hmem : ':' ∈ tablePath.toList := by
    rcases covers_iff.1 hcovers with rfl | hbegins
    · rw [hspelling]
      simp
    · exact hbegins.subset (by simp)
  rcases entry_cases hget with ⟨m', hm', rfl, -⟩ | ⟨m', hm', he, rfl, htable⟩ | ⟨hnot, -⟩
  · exact absurd hmem (hcolon m' hm')
  · by_contra hne
    have hsame : ¬ segments m.path <+: segments m'.path :=
      fun hbegins => hne (by rw [hc.eq_of_prefix hm hm' hbegins])
    rcases covers_iff.1 hcovers with rfl | hbegins
    · rw [hspelling] at htable
      obtain ⟨-, hpath⟩ := last_separator_unique (hcolon m hm) (hcolon m' hm') htable
      exact hsame (String.toList_inj.1 hpath ▸ List.prefix_rfl)
    · have hdot : (Urn.enterpriseUser ++ ":" ++ m.path ++ ".").toList =
          Urn.enterpriseUser.toList ++ ':' :: (m.path ++ ".").toList := by simp
      rw [htable, hdot] at hbegins
      rcases prefix_cases (by simpa using hcolon m hm) (hcolon m' hm') hbegins with h | ⟨-, h⟩
      · exact hclear m' hm' he hne (hdot ▸ h)
      · exact hsame (segments_of_covers (covers_iff.2 (.inr h)))
  · exact absurd hmem hnot

end

section

variable {m : Mapping} (hplain : PlainPath m.path)

include hplain

theorem target_core (he : m.isEnterprise = false) : Target.of m.address = ⟨none, m.path⟩ := by
  rw [show m.address = m.path from if_neg (by simp [he])]
  exact target_plain fun hmem => (hplain ':' hmem).1 rfl

omit hplain in
theorem target_enterprise (he : m.isEnterprise = true) :
    Target.of m.address = ⟨some Urn.enterpriseUser, m.path⟩ := by
  rw [show m.address = Urn.enterpriseUser ++ ":" ++ m.path from if_pos he]
  exact target_extension m.path

/-- The address of an attribute leads to its place in a partial resource. -/
theorem documentAt_address (hne : m.path ≠ "") (verb : Verb) (v : Value) :
    documentAt verb m.address v = .ok (writeAt v m.place []) := by
  have hbracket : '[' ∉ m.path.toList := fun hmem => (hplain '[' hmem).2.1 rfl
  cases he : m.isEnterprise with
  | false =>
    rw [Mapping.place_of_core he]
    exact documentAt_core hbracket hne (target_core hplain he) (by simp) verb v
  | true =>
    rw [Mapping.place_of_enterprise he]
    exact documentAt_extension_path hbracket hne (target_enterprise he) verb v

end

section

variable (hc : c.Patchable) {m : Mapping} (hm : m ∈ c.mappings) (hclear : c.Clear m)

include hc hm hclear

/-- Where its path is a spelling of an attribute, it leads to the attribute alone. -/
theorem fieldsBelow_path (hspelling : m.path ∈ m.spellings) :
    fieldsBelow (ofUsers collections c).table m.path = [m.backendAttribute] :=
  fieldsBelow_eq_singleton nodup_table
    (fun _ _ hcovers hget => attribute_of_covered_path hc hm hget
      (fun m' hm' he' hne' => hclear m' hm' he' hne' m.path hspelling) hcovers)
    (isSome_get?_table (Filter.PathTable.mem_mapped.2 ⟨m, hm, .inl rfl, rfl⟩))

/-- An attribute of the extension is found behind the name of the extension, or by its path. -/
theorem fieldsBelow_cases_enterprise (he : m.isEnterprise = true) :
    fieldsBelow (ofUsers collections c).table (Urn.enterpriseUser ++ ":" ++ m.path) =
        [m.backendAttribute] ∨
      fieldsBelow (ofUsers collections c).table (Urn.enterpriseUser ++ ":" ++ m.path) = [] ∧
        fieldsBelow (ofUsers collections c).table m.path = [m.backendAttribute] := by
  have hspellings : m.spellings = (Urn.enterpriseUser ++ ":" ++ m.path) ::
      if m.schema = Urn.enterpriseUser then [] else [m.path] := if_pos he
  have hbehind : ∀ tablePath field,
      covers (Urn.enterpriseUser ++ ":" ++ m.path) tablePath = true →
        (ofUsers collections c).table.get? tablePath = some field →
          field = m.backendAttribute := fun tablePath field hcovers hget =>
    attribute_of_covered_behind hc hm hget
      (fun m' hm' he' hne' => hclear m' hm' he' hne' _ (by simp [hspellings])) hcovers
  -- a schema that only has the name of the extension in it is entered under its own name
  by_cases hschema : m.schema = Urn.enterpriseUser
  · have hqualified : m.qualifiedPath = Urn.enterpriseUser ++ ":" ++ m.path := by
      rw [Mapping.qualifiedPath, if_pos he, hschema]
    refine .inl (fieldsBelow_eq_singleton nodup_table hbehind ?_)
    exact isSome_get?_table (Filter.PathTable.mem_mapped.2 ⟨m, hm, .inr hqualified.symm, rfl⟩)
  · refine (fieldsBelow_cases nodup_table hbehind).symm.imp_right fun hnil => ⟨hnil, ?_⟩
    exact fieldsBelow_path hc hm hclear (by simp [hspellings, hschema])

/-- Where no other schema begins with it, the address of an attribute leads to it alone. -/
theorem fieldsFor_address : (ofUsers collections c).fieldsFor m.address = .ok [m.backendAttribute] := by
  have hbracket : '[' ∉ m.path.toList := fun hmem => (hc.plain m hm '[' hmem).2.1 rfl
  have hne : m.path ≠ "" := Mapping.path_ne_empty (c.complete m hm)
  cases he : m.isEnterprise with
  | false =>
    have hspellings : m.spellings = [m.path] := if_neg (by simp [he])
    exact fieldsFor_core hbracket (target_core (hc.plain m hm) he) (by simp)
      (fieldsBelow_path hc hm hclear (by simp [hspellings]))
  | true =>
    exact fieldsFor_extension_path hbracket hne (target_enterprise he)
      (fieldsBelow_cases_enterprise hc hm hclear he)

end

end Converter

end Patch

namespace User

variable {c : MappingConfig} {m : Mapping}

/-- A partial resource with one mapped attribute stores this attribute alone. -/
theorem toBackend_writeAt (hc : c.Separate) (hm : m ∈ c.mappings) {v : Value} (hv : v ≠ .null) :
    toBackend c (writeAt v m.place []) = [(m.backendAttribute, v)] := by
  have hnone : ∀ {p : List String}, Apart m.place p →
      at? p (writeAt v m.place ([] : Fields Value)) = none := fun hapart => by
    rw [at?_writeAt_of_apart v hapart, at?_nil]
  have husual : ∀ p ∈ usualPlaces, at? p (writeAt v m.place ([] : Fields Value)) = none :=
    fun p hp => hnone (hc.apart_usual hm hp)
  have hself : mapped? (writeAt v m.place []) m = some v := by
    rw [mapped?, at?_writeAt_self v m.place_ne_nil (open_nil _), Option.bind_some,
      Value.nonNull?_of_ne hv]
  have hother : ∀ m' ∈ c.mappings, m' = m ∨ mapped? (writeAt v m.place []) m' = none := by
    intro m' hm'
    refine (hc.eq_or_apart hm hm').imp Eq.symm fun hapart => ?_
    rw [mapped?, hnone hapart, Option.bind_none]
  have hpairwise : c.mappings.Pairwise fun m₁ m₂ =>
      mapped? (writeAt v m.place []) m₁ = none ∨ mapped? (writeAt v m.place []) m₂ = none := by
    refine hc.pairwise_apart.imp_of_mem fun {m₁ m₂} hm₁ hm₂ hapart => ?_
    rcases hother m₁ hm₁ with rfl | h
    · refine .inr ((hother m₂ hm₂).resolve_left ?_)
      rintro rfl
      exact hapart.1 List.prefix_rfl
    · exact .inl h
  have hcore : coreEntries (writeAt v m.place []) = [] := coreEntries_eq_nil fun p hp =>
    husual p ((by decide : ∀ p ∈ corePlaces, p ∈ usualPlaces) p hp)
  have hpassed : sameEntries (writeAt v m.place []) (passedNames c) = [] :=
    sameEntries_eq_nil fun name hname =>
      husual [name] (mem_usualPlaces_of_passed (List.mem_filter.1 hname).1)
  rw [toBackend_eq, entries, hcore, hpassed, mappedEntries_eq_singleton hpairwise hm hself]
  rfl

end User

namespace Patch

/-! ## Requests for one attribute -/

theorem bare_extension {path : String} (h : path.toList.all isBareChar = true) :
    Bare (Urn.enterpriseUser ++ ":" ++ path) := by
  have hurn : (Urn.enterpriseUser ++ ":").toList.all isBareChar = true := by decide
  apply bare_of_all
  rw [String.toList_append, List.all_append, hurn, h]
  rfl

theorem bare_address {m : Mapping} (hplain : PlainPath m.path) : Bare m.address := by
  have hpath : ∀ ch ∈ m.path.toList, ch ≠ '/' ∧ isBlank ch = false :=
    fun ch hch => (hplain ch hch).2.2
  unfold Mapping.address
  split
  · exact bare_extension (all_isBareChar_iff.2 hpath)
  · exact bare_of_forall hpath

theorem address_ne_empty {m : Mapping} (hne : m.path ≠ "") : m.address ≠ "" := by
  unfold Mapping.address
  split
  · intro heq
    have hlength := congrArg String.length heq
    simp [Urn.enterpriseUser] at hlength
  · exact hne

variable {c : MappingConfig} {m : Mapping}

/-- Replacing a mapped attribute replaces its backend attribute. -/
theorem convert_replace (hc : c.Patchable) (collections : Collections) (hm : m ∈ c.mappings)
    {v : Value} (hv : v ≠ .null) :
    (Converter.ofUsers collections c).convert
      (request [entryOf .replace m.address (some v)]) =
        .ok [⟨.replace, "/" ++ m.backendAttribute, some v⟩] := by
  have hne := Mapping.path_ne_empty (c.complete m hm)
  have hattributes : (Converter.ofUsers collections c).attributesOf (writeAt v m.place []) =
      [(m.backendAttribute, v)] := User.toBackend_writeAt hc.separate hm hv
  rw [Converter.convert_writing Converter.type_ofUsers_ne_group (bare_address (hc.plain m hm))
    (address_ne_empty hne) (by decide) hv
    (Converter.documentAt_address (hc.plain m hm) hne .replace v) (by simp [hattributes]),
    hattributes]
  rfl

/-- Removing a mapped attribute removes its backend attribute, where no other schema begins with its
address. -/
theorem convert_remove (hc : c.Patchable) (collections : Collections) (hm : m ∈ c.mappings)
    (hclear : c.Clear m) :
    (Converter.ofUsers collections c).convert (request [entryOf .remove m.address none]) =
      .ok [⟨.remove, "/" ++ m.backendAttribute, none⟩] := by
  have hne := Mapping.path_ne_empty (c.complete m hm)
  rw [Converter.convert_removal Converter.type_ofUsers_ne_group (bare_address (hc.plain m hm))
    (address_ne_empty hne) (Converter.fieldsFor_address hc hm hclear)]
  rfl

end Patch

end ScimBridge
