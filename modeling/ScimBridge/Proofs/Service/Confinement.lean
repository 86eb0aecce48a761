import ScimBridge.Proofs.Backend.Bodies
import ScimBridge.Proofs.Patch.Pointers
import ScimBridge.Proofs.Resource.Exposed
import ScimBridge.Proofs.Service.Requests

/-!
# What reaches the backend

Whatever a call says, the bodies that it sends to the backend name exposed attributes only, with one
exception: the removal of the whole enterprise extension from a group removes its mapped attributes,
although groups do not have them (`writes_confined`).
-/

namespace ScimBridge

namespace Service

open Backend Backend.Exchange

variable {α β : Type}

/-- The backend attributes of a kind that a deployment exposes. -/
def Kind.exposed (config : MappingConfig) : Kind → List String
  | .user => User.exposed config
  | .group => Group.exposed

variable (s : Setup) (kind : Kind)

theorem Setup.table_exposed : ∀ p ∈ s.table kind, p.2 ∈ kind.exposed s.config := by
  intro p hp
  cases kind with
  | user => exact Filter.PathTable.exposed_of_mem_user hp
  | group => exact Filter.PathTable.exposed_of_mem_group hp

/-- The patch converter of a kind leads to exposed attributes. -/
theorem Setup.converter_exposes : (s.converter kind).Exposes (kind.exposed s.config) where
  table := by
    refine List.foldlRecOn
      (motive := fun table : Filter.PathTable => ∀ p ∈ table, p.2 ∈ kind.exposed s.config)
      _ (fun acc name => Fields.putNew acc name name) (s.table_exposed kind) ?_
    intro acc hacc name hname p hp
    unfold Fields.putNew at hp
    split at hp
    · exact hacc p hp
    · rcases Fields.mem_put hp with hvalue | hp
      · cases kind with
        | user =>
          have husual : ∀ name ∈ User.passedThrough ++ ["password"],
              name ∈ User.usualAttributes := by decide
          exact hvalue ▸ User.exposed_of_usual (husual name hname)
        | group => cases hname
      · exact hacc p hp
  attributes resource := by
    cases kind with
    | user => exact User.keys_toBackend_subset resource
    | group => exact Fields.keys_erase_subset (Group.keys_toBackend_subset _ resource) _
  members htype := by
    cases kind with
    | user => cases htype
    | group => exact (by decide : "members" ∈ Group.exposed)

/-- The bodies that a call may send. -/
def Setup.Confined : Call → Value → Prop
  | .create _, body | .replace _ _ _, body =>
    ∃ attributes : Fields Value,
      body = .object attributes ∧ attributes.keys ⊆ kind.exposed s.config
  | .patch _ request _, body =>
    ∃ operations : List Patch.Operation,
      body = .array (operations.map Patch.Operation.toValue) ∧
      ∀ o ∈ operations,
        o.field ∈ Patch.Converter.pointers kind.type (kind.exposed s.config) ∨
          kind = .group ∧ o ∈ Patch.Converter.extensionRemovals s.config ∧
            ∃ entries, Patch.Converter.entriesOf request = .ok entries ∧
              ∃ entry ∈ entries, Patch.Converter.RemovesExtension entry
  | _, _ => False

section

variable {P : Request → Prop}

theorem onlySends_ask {action missing : String} {x : Action α} (h : OnlySends P x) :
    OnlySends P (ask action missing x) := by
  intro c
  rw [startedIn_ask, ensures_bind]
  exact (h c).mono fun _ _ => rfl

theorem onlySends_settle (x : Outcome α) : OnlySends P (settle x) := fun _ => rfl

theorem onlySends_settle_bind {x : Outcome α} {f : α → Operation β}
    (h : ∀ a, x = .ok a → OnlySends P (f a)) : OnlySends P (settle x >>= f) := by
  cases x with
  | ok a => exact h a rfl
  | error e => exact fun _ => rfl

end

variable {s kind}

theorem keys_attributesOf_subset {resource : Value} {attributes : Fields Value}
    (h : s.attributesOf kind resource = .ok attributes) :
    attributes.keys ⊆ kind.exposed s.config := by
  unfold Setup.attributesOf at h
  split at h
  · split at h
    · cases h
    · split at h
      · cases h
      · cases kind with
        | user =>
          cases h
          exact User.keys_toBackend_subset _
        | group =>
          cases h
          exact Group.keys_toBackend_subset _ _
  · cases h

/-- The operations of a patch request are confined. -/
theorem confined_of_convert {id : String} {request : Value} {revision : Option Value}
    {operations : List Patch.Operation}
    (h : (s.converter kind).convert request = .ok operations) :
    s.Confined kind (.patch id request revision)
      (.array (operations.map Patch.Operation.toValue)) := by
  refine ⟨operations, rfl, fun o ho => ?_⟩
  obtain ⟨converted, hconverts, rfl⟩ := Patch.Converter.convert_eq_ok_iff.1 h
  obtain ⟨own, hown, ho⟩ := List.mem_flatten.1 ho
  obtain ⟨entries, hentries, entry, hentry, hoperations⟩ := hconverts.exists_entry hown
  rcases (s.converter_exposes kind).point_entry hoperations with hpointers | ⟨hremoves, rfl⟩
  · exact .inl (hpointers o ho)
  · -- the mapped attributes are those of users, so only a group is left with the exception
    cases kind with
    | user =>
      obtain ⟨m, hm, rfl⟩ := List.mem_map.1 ho
      exact .inl (Patch.Converter.pointer_of_mem
        (User.exposed_of_mapping (List.mem_filter.1 hm).1))
    | group => exact .inr ⟨rfl, ho, entries, hentries, entry, hentry, hremoves⟩

theorem onlySends_get (Q : Value → Prop) (id : String) (caller : Caller) :
    OnlySends (BodyMeets Q) (s.get kind id caller) :=
  (onlySends_ask Objects.onlySends_read).bind fun _ => onlySends_settle _

/-- The bodies that a call sends are confined. -/
theorem onlySends_answer (caller : Caller) (call : Call) :
    OnlySends (BodyMeets (s.Confined kind call)) (s.answer kind caller call) := by
  cases call with
  | list query =>
    exact onlySends_settle_bind fun page _ => onlySends_settle_bind fun filter _ =>
      (onlySends_ask (Objects.onlySends_query _)).bind fun found =>
        (onlySends_settle _).bind fun objects => (onlySends_settle _).bind fun _ => .pure _
  | get id => exact onlySends_get _ id caller
  | create resource =>
    exact onlySends_settle_bind fun attributes h =>
      (onlySends_ask (Objects.onlySends_create ⟨attributes, rfl, keys_attributesOf_subset h⟩)).bind
        fun _ => onlySends_settle _
  | replace id resource revision =>
    exact onlySends_settle_bind fun attributes h =>
      (onlySends_ask (Objects.onlySends_replace ⟨attributes, rfl, keys_attributesOf_subset h⟩
        revision)).bind fun _ => onlySends_settle _
  | patch id request revision =>
    refine onlySends_settle_bind fun operations h => ?_
    have hconvert : (s.converter kind).convert request = .ok operations := by
      unfold Setup.patchOperations at h
      split at h
      · cases h
        assumption
      · cases h
    split
    · exact onlySends_get _ id caller
    · exact (onlySends_ask (Objects.onlySends_patch (confined_of_convert hconvert) revision)).bind
        fun _ => onlySends_settle _
  | delete id revision =>
    exact (onlySends_ask (Objects.onlySends_delete revision)).bind fun _ => .pure _
  | translate filter => exact (onlySends_settle _).bind fun _ => .pure _

/-- An entry that removes the enterprise extension. -/
def extensionEntry : Fields Value :=
  [("op", .string "remove"), ("path", .string Urn.enterpriseUser)]

/-- A request to remove the enterprise extension. -/
def extensionRemoval : Value :=
  .object
    [("schemas", .texts [Urn.patchOp]), ("Operations", .array [.object extensionEntry])]

theorem namesExtension_enterpriseUser : Patch.Converter.NamesExtension Urn.enterpriseUser := by
  have htarget : Patch.Target.of Urn.enterpriseUser = ⟨some Urn.enterpriseUser, ""⟩ := by decide
  refine ⟨by rw [htarget], ?_⟩
  rw [htarget]
  simp [Patch.Target.plain, Patch.withoutFilters]

/-- A group gives up all mapped attributes of the extension, if there are any. -/
theorem convert_extensionRemoval (h : s.config.enterprise ≠ []) :
    (s.converter .group).convert extensionRemoval =
      .ok (Patch.Converter.extensionRemovals s.config) := by
  have hentries : Patch.Converter.entriesOf extensionRemoval =
      .ok [.object extensionEntry] := rfl
  have hverb : Patch.Converter.verbOf extensionEntry = .ok .remove := rfl
  have hpath : Patch.Converter.pathOf extensionEntry = .ok Urn.enterpriseUser := rfl
  have hmembers : (s.converter .group).isMembersPath Urn.enterpriseUser = false :=
    (by decide : (Patch.Target.of Urn.enterpriseUser).isMembers = false)
  have hoperations : (s.converter .group).operations .remove Urn.enterpriseUser .null =
      .ok (Patch.Converter.extensionRemovals s.config) := by
    simp only [Patch.Converter.operations, hmembers, Bool.false_eq_true, if_false]
    rw [if_neg (by decide),
      Patch.Converter.fieldsFor_extension namesExtension_enterpriseUser h, Except.map,
      List.map_map]
    rfl
  have hentry : (s.converter .group).entryOperations (.object extensionEntry) =
      .ok (Patch.Converter.extensionRemovals s.config) :=
    bind_eq_ok_iff.2 ⟨_, hverb, bind_eq_ok_iff.2 ⟨_, hpath, hoperations⟩⟩
  exact Patch.Converter.convert_eq_ok_iff.2 ⟨[_], ⟨_, hentries, .cons hentry .nil⟩, by simp⟩

/-- The one request that the removal of the extension from a group sends. -/
theorem calls_extensionRemoval (h : s.config.enterprise ≠ []) {t : String} (ht : t ≠ "")
    (baseUrl id : String) (revision : Option Value) (c : Client) (script : List Answer) :
    ((startedIn (s.answer .group ⟨some t, baseUrl⟩ (.patch id extensionRemoval revision)) c).play
      script).calls = [Objects.patchRequest c (s.object .group) id
        (.array ((Patch.Converter.extensionRemovals s.config).map Patch.Operation.toValue))
        revision t] := by
  have hsome : (Patch.Converter.extensionRemovals s.config).isEmpty = false := by
    simpa [Patch.Converter.extensionRemovals] using h
  refine (asksOnce_patch ht baseUrl c id (convert_extensionRemoval h) revision).calls.trans ?_
  rw [hsome]
  rfl

/-- Every body that a call sends to the backend is confined to exposed attributes; only a patch
request that removes the enterprise extension from a group names mapped attributes as well. It does
so wherever there are any. -/
theorem writes_confined (s : Setup) :
    (∀ (kind : Kind) (caller : Caller) (call : Call) (c : Client) (script : List Answer),
      ∀ request ∈ ((startedIn (s.answer kind caller call) c).play script).calls,
        ∀ body, request.json = some body → s.Confined kind call body) ∧
    (s.config.enterprise ≠ [] → ∀ (t baseUrl id : String) (revision : Option Value) (c : Client)
      (script : List Answer), t ≠ "" →
        ((startedIn (s.answer .group ⟨some t, baseUrl⟩ (.patch id extensionRemoval revision))
          c).play script).calls = [Objects.patchRequest c (s.object .group) id
            (.array ((Patch.Converter.extensionRemovals s.config).map Patch.Operation.toValue))
            revision t]) :=
  ⟨fun _ caller call _ script => (onlySends_answer caller call).calls script,
    fun h _ baseUrl id revision c script ht =>
      calls_extensionRemoval h ht baseUrl id revision c script⟩

/-- A group loses an attribute that only users have, and that is not exposed for groups. -/
theorem group_loses_mapped_attribute :
    let s : Setup := ⟨{}, .ofMappings
      [{ path := "employeeNumber", schema := Urn.enterpriseUser
         backendAttribute := "frIndexedString1" }]⟩
    ∃ (request : Request) (operations : List Patch.Operation),
      request ∈ ((startedIn (s.answer .group ⟨some "caller", "https://gw.test/scim/v2"⟩
        (.patch "g-1" extensionRemoval none)) (.ofAddress "http://idm.test")).play []).calls ∧
      request.json = some (.array (operations.map Patch.Operation.toValue)) ∧
      ∃ o ∈ operations, o.field = "/frIndexedString1" ∧
        o.field ∉ Patch.Converter.pointers .group Group.exposed := by
  intro s
  have hmapped : Patch.Converter.extensionRemovals s.config =
      [⟨.remove, "/frIndexedString1", none⟩] := rfl
  have hcalls := calls_extensionRemoval (s := s) (by decide) (t := "caller") (by decide)
    "https://gw.test/scim/v2" "g-1" none (.ofAddress "http://idm.test") []
  refine ⟨_, _, hcalls ▸ List.mem_singleton_self _, rfl, ?_⟩
  rw [hmapped]
  exact ⟨_, List.mem_singleton_self _, rfl, by decide⟩

end Service

end ScimBridge
