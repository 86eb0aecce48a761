import ScimBridge.Proofs.Patch.Coverage
import ScimBridge.Proofs.Patch.Requests
import ScimBridge.Proofs.Resource.Binding

/-!
# Core attributes in every direction

A core attribute that is passed through is bound to one backend attribute. Resources and patches
write it there unless a mapping of another schema claims its name; a patch removes the attribute of
the last mapping that has its path, whatever its schema; and a resource shows it, or else what the
backend has under the name itself (`core_attribute_directions`). So the directions disagree where a
short path belongs to more than one schema (`title_directions_disagree`).
-/

namespace ScimBridge

open Resource

namespace MappingConfig

variable {c : MappingConfig} {name : String}

/-- No mapping has a path that leads below a name, in either spelling. -/
def NothingBelow (c : MappingConfig) (name : String) : Prop :=
  ∀ m ∈ c.mappings, ¬ (name ++ ".").toList <+: m.path.toList ∧
    ¬ (name ++ ".").toList <+: m.qualifiedPath.toList

/-- The last mapping of a path, whatever its schema. -/
def lastMapping? (c : MappingConfig) (name : String) : Option Mapping :=
  c.mappings.reverse.find? fun m => m.path == name

/-- The backend attribute that the removal of a core attribute removes. -/
def removedAs (c : MappingConfig) (name : String) : String :=
  ((c.lastMapping? name).map (·.backendAttribute)).getD name

/-- If no other schema has the path, what is removed is what the attribute is bound to. -/
theorem removedAs_eq_boundTo (hunique : c.UniquePaths)
    (hcore : ∀ m ∈ c.mappings, m.path = name → m.isCoreUser = true) :
    c.removedAs name = c.boundTo name := by
  cases hlast : c.lastMapping? name with
  | some m =>
    have hm : m ∈ c.mappings := List.mem_reverse.1 (List.mem_of_find?_eq_some hlast)
    have hpath : m.path = name := by simpa using List.find?_some hlast
    rw [boundTo_of_some (hunique.coreMapping?_eq hm (hcore m hm hpath) hpath), removedAs, hlast]
    rfl
  | none =>
    have hnone : c.coreMapping? name = none := by
      cases hfind : c.coreMapping? name with
      | none => rfl
      | some m =>
        obtain ⟨hm, -, hpath⟩ := coreMapping?_eq_some hfind
        have hnot := List.find?_eq_none.1 hlast m (List.mem_reverse.2 hm)
        exact absurd (beq_iff_eq.2 hpath) hnot
    rw [boundTo_of_none hnone, removedAs, hlast]
    rfl

end MappingConfig

namespace Filter.PathTable

/-- A path without a colon is that of the last mapping that has it. -/
theorem get?_mapped {c : MappingConfig} {name : String} (hcolon : ':' ∉ name.toList) :
    Fields.get? (mapped c).reverse name = (c.lastMapping? name).map (·.backendAttribute) := by
  have hspelled : (fun m : Mapping => name == m.path || name == m.qualifiedPath) =
      fun m => m.path == name := by
    funext m
    by_cases hpath : m.path = name
    · simp [hpath]
    · have hne : m.qualifiedPath ≠ name :=
        fun h => hpath (Mapping.path_eq_of_qualifiedPath hcolon h)
      rw [beq_eq_false_iff_ne.2 hpath, beq_eq_false_iff_ne.2 (Ne.symm hpath),
        beq_eq_false_iff_ne.2 (Ne.symm hne), Bool.or_false]
  rw [get?_reverse_mapped, hspelled, MappingConfig.lastMapping?]

end Filter.PathTable

namespace Patch

namespace Converter

variable {c : MappingConfig} {collections : Collections} {name : String}

/-- How a patch addresses a core attribute: with or without the name of its schema. -/
def coreAddresses (name : String) : List String := [name, Urn.coreUser ++ ":" ++ name]

section

variable (hname : name ∈ User.passedThrough)

include hname

/-- The name has no schema, filter or other name in it. -/
theorem plain_of_passed : ':' ∉ name.toList ∧ '[' ∉ name.toList ∧ name ≠ "" ∧
    Resource.segments name = [name] :=
  (by decide : ∀ name ∈ User.passedThrough, ':' ∉ name.toList ∧ '[' ∉ name.toList ∧ name ≠ "" ∧
    Resource.segments name = [name]) name hname

theorem target_of_coreAddress {address : String} (h : address ∈ coreAddresses name) :
    ∃ schema, schema ≠ some Urn.enterpriseUser ∧ Target.of address = ⟨schema, name⟩ := by
  rcases List.mem_pair.1 h with rfl | rfl
  · exact ⟨none, by simp, target_plain (plain_of_passed hname).1⟩
  · exact ⟨some Urn.coreUser, by decide, target_named (by decide) name⟩

theorem bare_coreAddress {address : String} (h : address ∈ coreAddresses name) :
    Bare address ∧ address ≠ "" := by
  have hplain : ∀ name ∈ User.passedThrough, ∀ address ∈ coreAddresses name, address ≠ "" ∧
      address.toList.all isBareChar = true := by decide +kernel
  obtain ⟨hne, hall⟩ := hplain name hname address h
  exact ⟨bare_of_all hall, hne⟩

/-! ## Removing -/

theorem get?_table_of_passed :
    (ofUsers collections c).table.get? name = some (c.removedAs name) := by
  have hreserved : Fields.get? reserved name = some name :=
    (by decide : ∀ name ∈ User.passedThrough, Fields.get? reserved name = some name) name hname
  rw [get?_table, Filter.PathTable.get?_mapped (plain_of_passed hname).1, hreserved,
    MappingConfig.removedAs]
  cases c.lastMapping? name <;> rfl

theorem fieldsBelow_of_passed (hbelow : c.NothingBelow name) :
    fieldsBelow (ofUsers collections c).table name = [c.removedAs name] := by
  have hself : (ofUsers collections c).table.get? name = some (c.removedAs name) :=
    get?_table_of_passed hname
  refine fieldsBelow_eq_singleton nodup_table ?_ (by rw [hself]; rfl)
  intro tablePath field hcovers hget
  rcases covers_iff.1 hcovers with rfl | hbegins
  · exact Option.some.inj (hget.symm.trans hself)
  · rcases table_cases hget with ⟨m, hm, hspelled, -⟩ | ⟨-, hreserved⟩
    · rcases hspelled with rfl | rfl
      · exact absurd hbegins (hbelow m hm).1
      · exact absurd hbegins (hbelow m hm).2
    · have hnone : ∀ name ∈ User.passedThrough, ∀ entry ∈ reserved,
          ¬ (name ++ ".").toList <+: entry.1.toList := by decide
      exact absurd hbegins (hnone name hname _ (Fields.mem_of_get? hreserved))

/-- A patch that removes a core attribute removes one backend attribute. -/
theorem convert_removal_of_passed (hbelow : c.NothingBelow name) {address : String}
    (h : address ∈ coreAddresses name) :
    (ofUsers collections c).convert (request [entryOf .remove address none]) =
      .ok [⟨.remove, "/" ++ c.removedAs name, none⟩] := by
  obtain ⟨schema, hschema, htarget⟩ := target_of_coreAddress hname h
  obtain ⟨hbare, hne⟩ := bare_coreAddress hname h
  obtain ⟨-, hbracket, -⟩ := plain_of_passed hname
  rw [convert_removal type_ofUsers_ne_group hbare hne (fieldsFor_core hbracket htarget
    hschema (fieldsBelow_of_passed hname hbelow))]
  rfl

/-! ## Writing -/

theorem documentAt_coreAddress {address : String} (h : address ∈ coreAddresses name) (verb : Verb)
    (v : Value) : documentAt verb address v = .ok [(name, v)] := by
  obtain ⟨schema, hschema, htarget⟩ := target_of_coreAddress hname h
  obtain ⟨-, hbracket, hne, hsegments⟩ := plain_of_passed hname
  rw [documentAt_core hbracket hne htarget hschema, hsegments]
  rfl

end

/-- Resources and patches write an attribute to one backend attribute. -/
structure WrittenAs (c : MappingConfig) (collections : Collections) (name target : String) :
    Prop where
  resource : User.WritesTo c name target
  patch : ∀ address ∈ coreAddresses name, ∀ verb v, verb ≠ .remove → v ≠ .null →
    (ofUsers collections c).convert (request [entryOf verb address (some v)]) =
      .ok [⟨verb, "/" ++ target, some v⟩]
  whole : ∀ verb v, verb ≠ .remove → v ≠ .null →
    (ofUsers collections c).convert (request [wholeEntry verb [(name, v)]]) =
      .ok [⟨verb, "/" ++ target, some v⟩]

/-- Resources do not write an attribute, and patches that would are refused, or without a path do
nothing. -/
structure Unwritten (c : MappingConfig) (collections : Collections) (name : String) : Prop where
  resource : ∀ resource, User.toBackend c resource = User.toBackend c (Fields.erase resource name)
  patch : ∀ address ∈ coreAddresses name, ∀ verb v, verb ≠ .remove → v ≠ .null →
    (ofUsers collections c).convert (request [entryOf verb address (some v)]) =
      .error (.unsupportedPath address)
  whole : ∀ verb v, verb ≠ .remove →
    (ofUsers collections c).convert (request [wholeEntry verb [(name, v)]]) = .ok []

section

variable (hname : name ∈ User.passedThrough) (hunique : c.UniquePaths)
  (halone : c.StandsAlone name)

include hname hunique halone

/-- A partial resource with the attribute alone writes it where it is bound to. -/
theorem attributesOf_single (hclaimed : ¬ c.Claimed name) {v : Value} (hv : v ≠ .null) :
    (ofUsers collections c).attributesOf [(name, v)] = [(c.boundTo name, v)] :=
  User.toBackend_single hname hunique halone hclaimed hv

theorem writtenAs_boundTo (hclaimed : ¬ c.Claimed name) :
    WrittenAs c collections name (c.boundTo name) where
  resource := User.writesTo_boundTo hname hunique halone hclaimed
  patch address h verb v hverb hv := by
    obtain ⟨hbare, hne⟩ := bare_coreAddress hname h
    have hattributes : (ofUsers collections c).attributesOf [(name, v)] = [(c.boundTo name, v)] :=
      attributesOf_single hname hunique halone hclaimed hv
    rw [convert_writing type_ofUsers_ne_group hbare hne hverb hv
      (documentAt_coreAddress hname h verb v) (by simp [hattributes]), hattributes]
    rfl
  whole verb v hverb hv := by
    rw [convert_whole type_ofUsers_ne_group hverb,
      attributesOf_single hname hunique halone hclaimed hv]
    rfl

/-- A partial resource with a claimed attribute alone has no attributes of the backend. -/
theorem attributesOf_of_claimed (hclaimed : c.Claimed name) (v : Value) :
    (ofUsers collections c).attributesOf [(name, v)] = [] := by
  have herase : Fields.erase [(name, v)] name = [] := by simp [Fields.erase]
  show User.toBackend c [(name, v)] = []
  rw [User.toBackend_of_claimed hname hunique halone hclaimed, herase, User.toBackend_nil]

theorem unwritten_of_claimed (hclaimed : c.Claimed name) : Unwritten c collections name where
  resource := User.toBackend_of_claimed hname hunique halone hclaimed
  patch address h verb v hverb hv := by
    obtain ⟨hbare, hne⟩ := bare_coreAddress hname h
    exact convert_writing_refused type_ofUsers_ne_group hbare hne hverb hv
      (documentAt_coreAddress hname h verb v)
      (attributesOf_of_claimed hname hunique halone hclaimed v)
  whole verb v hverb := by
    rw [convert_whole type_ofUsers_ne_group hverb,
      attributesOf_of_claimed hname hunique halone hclaimed]
    rfl

end

end Converter

/-! ## All directions -/

open Converter

/-- Where no other schema has the path of a core attribute, no mapping claims its name. -/
theorem not_claimed_of_core {c : MappingConfig} {name : String} (hname : name ∈ User.passedThrough)
    (h : ∀ m ∈ c.mappings, m.path = name → m.isCoreUser = true) : ¬ c.Claimed name := by
  rintro ⟨hnone, hsome⟩
  obtain ⟨m, hfind⟩ := Option.isSome_iff_exists.1 hsome
  have hm : m ∈ c.mappings := List.mem_of_find?_eq_some hfind
  have hspelled : name = m.path ∨ name = m.qualifiedPath := by simpa using List.find?_some hfind
  have hpath : m.path = name := hspelled.elim Eq.symm fun heq =>
    Mapping.path_eq_of_qualifiedPath (plain_of_passed hname).1 heq.symm
  exact MappingConfig.coreMapping?_eq_none hnone hm (h m hm hpath) hpath

/-- A core attribute in every direction. It is written where it is bound to, or not at all where a
mapping of another schema claims its name, and it is shown iff there is something where it is bound
to or under its own name. It is removed where the last mapping of its path says, whatever the schema;
if no other schema has the path, this is where it is bound to, and nothing claims the name. -/
theorem core_attribute_directions {c : MappingConfig} {name : String}
    (hname : name ∈ User.passedThrough) (hunique : c.UniquePaths) (collections : Collections)
    (baseUrl : String) :
    (c.StandsAlone name →
      (¬ c.Claimed name → WrittenAs c collections name (c.boundTo name)) ∧
      (c.Claimed name → Unwritten c collections name) ∧
      ∀ user, (c.Unentered → ∃ resource, User.ofBackend baseUrl c user = .ok resource) ∧
        ∀ resource, User.ofBackend baseUrl c user = .ok resource →
          (resource.get? name).isSome = (User.shown? c user name).isSome ∧
          ∀ v, User.shown? c user name = some v →
            ((∀ members, v ≠ .object members) ∨ c.Unentered) → resource.get? name = some v) ∧
    (c.NothingBelow name → ∀ address ∈ coreAddresses name,
      (ofUsers collections c).convert (request [entryOf .remove address none]) =
        .ok [⟨.remove, "/" ++ c.removedAs name, none⟩]) ∧
    ((∀ m ∈ c.mappings, m.path = name → m.isCoreUser = true) →
      ¬ c.Claimed name ∧ c.removedAs name = c.boundTo name) := by
  refine ⟨fun halone => ⟨?_, ?_, fun user => ⟨fun hunentered => ?_, fun resource => ?_⟩⟩, ?_, ?_⟩
  · exact writtenAs_boundTo hname hunique halone
  · exact unwritten_of_claimed hname hunique halone
  · obtain ⟨_, -, hresource⟩ := User.ofBackend_eq hunentered baseUrl user
    exact ⟨_, hresource⟩
  · exact User.get?_ofBackend hname hunique halone
  · exact fun hbelow address => convert_removal_of_passed hname hbelow
  · exact fun hcore => ⟨not_claimed_of_core hname hcore,
      MappingConfig.removedAs_eq_boundTo hunique hcore⟩

/-- A title that has a mapping next to an attribute of the extension. -/
theorem core_attribute_directions_mapped :
    let title : Mapping :=
      { path := "title", schema := Urn.coreUser, backendAttribute := "frIndexedString1" }
    let division : Mapping :=
      { path := "division", schema := Urn.enterpriseUser, backendAttribute := "frIndexedString2" }
    let c : MappingConfig := ⟨[title, division], by decide⟩
    WrittenAs c {} "title" "frIndexedString1" ∧
      (ofUsers {} c).convert (request [entryOf .remove "title" none]) =
        .ok [⟨.remove, "/frIndexedString1", none⟩] ∧
      ∃ resource, User.ofBackend "/scim/v2" c
          [("_id", .string "u1"), ("frIndexedString1", .string "Engineer")] = .ok resource ∧
        resource.get? "title" = some (.string "Engineer") := by
  intro title division c
  have hunique : c.UniquePaths := by unfold MappingConfig.UniquePaths; decide
  have halone : c.StandsAlone "title" := by unfold MappingConfig.StandsAlone; decide
  have hbelow : c.NothingBelow "title" := by unfold MappingConfig.NothingBelow; decide
  have hunentered : c.Unentered := ⟨by decide, by decide⟩
  obtain ⟨hwrite, hremove, hcore⟩ := core_attribute_directions
    (by decide : "title" ∈ User.passedThrough) hunique {} "/scim/v2"
  obtain ⟨hwritten, -, hread⟩ := hwrite halone
  obtain ⟨hreturns, hshown⟩ :=
    hread [("_id", .string "u1"), ("frIndexedString1", .string "Engineer")]
  obtain ⟨resource, hresource⟩ := hreturns hunentered
  exact ⟨hwritten (hcore (by decide)).1, hremove hbelow "title" List.mem_cons_self, resource,
    hresource, (hshown resource hresource).2 _ rfl (.inr hunentered)⟩

/-- A mapping of the extension with the path of the core title: the title is bound to the attribute
of its own name, but a resource loses it, a patch that replaces it is refused, and one that removes
it removes the attribute of the extension. -/
theorem title_directions_disagree :
    let title : Mapping :=
      { path := "title", schema := Urn.enterpriseUser, backendAttribute := "frIndexedString1" }
    let c : MappingConfig := ⟨[title], by decide⟩
    c.UniquePaths ∧ c.boundTo "title" = "title" ∧
      User.toBackend c [("title", .string "Engineer")] = [] ∧
      (ofUsers {} c).convert (request [entryOf .replace "title" (some (.string "Engineer"))]) =
        .error (.unsupportedPath "title") ∧
      (ofUsers {} c).convert (request [entryOf .remove "title" none]) =
        .ok [⟨.remove, "/frIndexedString1", none⟩] := by
  intro title c
  have hname : "title" ∈ User.passedThrough := by decide
  have hunique : c.UniquePaths := by unfold MappingConfig.UniquePaths; decide
  have halone : c.StandsAlone "title" := by unfold MappingConfig.StandsAlone; decide
  have hbelow : c.NothingBelow "title" := by unfold MappingConfig.NothingBelow; decide
  have hclaimed : c.Claimed "title" := ⟨rfl, rfl⟩
  have hlost : Unwritten c {} "title" := unwritten_of_claimed hname hunique halone hclaimed
  have haddress : "title" ∈ coreAddresses "title" := List.mem_cons_self
  refine ⟨hunique, rfl, ?_, ?_, ?_⟩
  · exact (hlost.resource [("title", .string "Engineer")]).trans User.toBackend_nil
  · exact hlost.patch "title" haddress .replace (.string "Engineer") (by decide) (by simp)
  · exact convert_removal_of_passed hname hbelow haddress

end Patch

end ScimBridge
