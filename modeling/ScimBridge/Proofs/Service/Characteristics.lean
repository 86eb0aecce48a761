import ScimBridge.Proofs.Patch.Requests
import ScimBridge.Proofs.Resource.Shown
import ScimBridge.Proofs.Resource.Stored
import ScimBridge.Proofs.Schema.Compiled
import ScimBridge.Proofs.Service.Requests

/-!
# Characteristics of mapped attributes

A mapping may say of its attribute when it is returned and whether it can be written, and a property
that the backend hides is published as one that is never returned (`returned_of_hidden`). Nothing
but the schemas looks at these characteristics: the service answers every call, and asks the backend,
as if each mapping had the usual ones (`Setup.perform_withDefaults`). So an attribute is shown
whenever the backend has a value, and is sent whenever a user has one, whatever is declared of it
(`characteristics_unenforced`); a hidden answer that is mapped is shown (`hidden_attributes_pass`).
-/

namespace ScimBridge

open Resource

/-! ## Mappings with the usual characteristics -/

/-- The mapping of the same place to the same attribute, with the usual characteristics. -/
def Mapping.withDefaults (m : Mapping) : Mapping :=
  { path := m.path, schema := m.schema, backendAttribute := m.backendAttribute }

/-- The mappings of the same places to the same attributes. -/
def MappingConfig.withDefaults (c : MappingConfig) : MappingConfig where
  mappings := c.mappings.map Mapping.withDefaults
  complete m hm := by
    obtain ⟨other, hother, rfl⟩ := List.mem_map.1 hm
    exact c.complete other hother

/-! ## Resources -/

namespace User

variable (c : MappingConfig)

theorem begun_withDefaults (object : Fields Value) :
    begun c.withDefaults object = begun c object := by
  have huses : usesEnterprise c.withDefaults object = usesEnterprise c object := by
    unfold usesEnterprise
    rw [MappingConfig.withDefaults, List.any_map]
    rfl
  unfold begun schemasOf
  rw [huses]

/-- The resource of a user does not depend on characteristics. -/
theorem ofBackend_withDefaults (baseUrl : String) (object : Fields Value) :
    ofBackend baseUrl c.withDefaults object = ofBackend baseUrl c object := by
  have hwritten : ∀ seen m, c.withDefaults.mappings.foldl (writeMapped seen) m =
      c.mappings.foldl (writeMapped seen) m := by
    intro seen m
    rw [MappingConfig.withDefaults, List.foldl_map]
    rfl
  unfold ofBackend
  simp only [begun_withDefaults, hwritten]

theorem byPath?_withDefaults (path : String) :
    (c.withDefaults.byPath? path).isSome = (c.byPath? path).isSome := by
  unfold MappingConfig.byPath?
  rw [MappingConfig.withDefaults, List.find?_map, Option.isSome_map]
  rfl

/-- Nor do the backend attributes of a resource. -/
theorem toBackend_withDefaults (resource : Fields Value) :
    toBackend c.withDefaults resource = toBackend c resource := by
  have hpassed : ∀ target, putPassed c.withDefaults resource target =
      putPassed c resource target := by
    intro target
    unfold putPassed
    simp only [byPath?_withDefaults]
  unfold toBackend
  extract_lets plain core
  rw [hpassed, MappingConfig.withDefaults, List.foldl_map]
  rfl

end User

theorem Filter.PathTable.user_withDefaults (c : MappingConfig) :
    user c.withDefaults = user c := by
  unfold user
  rw [MappingConfig.withDefaults, List.foldl_map]
  rfl

/-! ## Patches -/

namespace Patch.Converter

variable (c : Converter)

/-- The converter for mappings with the usual characteristics. -/
def withDefaults : Converter := { c with config := c.config.withDefaults }

theorem fieldsFor_withDefaults (path : String) :
    c.withDefaults.fieldsFor path = c.fieldsFor path := by
  have hmapped : c.config.withDefaults.enterprise.map (·.backendAttribute) =
      c.config.enterprise.map (·.backendAttribute) := by
    unfold MappingConfig.enterprise
    rw [MappingConfig.withDefaults, List.filter_map, List.map_map]
    rfl
  unfold fieldsFor withDefaults
  rw [hmapped]

theorem attributesOf_withDefaults (resource : Fields Value) :
    c.withDefaults.attributesOf resource = c.attributesOf resource := by
  unfold attributesOf withDefaults
  simp only [User.toBackend_withDefaults]

theorem operations_withDefaults (verb : Verb) (path : String) (value : Value) :
    c.withDefaults.operations verb path value = c.operations verb path value := by
  have hobject : ∀ verb members,
      c.withDefaults.objectOperations verb members = c.objectOperations verb members := by
    intro verb members
    unfold objectOperations
    rw [attributesOf_withDefaults]
    rfl
  have hattribute : ∀ verb value,
      c.withDefaults.attributeOperations verb path value =
        c.attributeOperations verb path value := by
    intro verb value
    unfold attributeOperations
    simp only [attributesOf_withDefaults]
  unfold Converter.operations
  rw [fieldsFor_withDefaults]
  simp only [hobject, hattribute]
  rfl

/-- What a patch request is converted to does not depend on characteristics. -/
theorem convert_withDefaults (request : Value) :
    c.withDefaults.convert request = c.convert request := by
  have hentry : c.withDefaults.entryOperations = c.entryOperations := by
    funext entry
    unfold entryOperations
    simp only [operations_withDefaults]
  unfold convert
  rw [hentry]

end Patch.Converter

/-! ## What is published -/

namespace Schema

/-- The names of attributes, with when they are returned. -/
def returnedOf (attributes : List Attribute) : List (String × Returned) :=
  attributes.map fun a => (a.name, a.returned)

variable {attributes : List Attribute}

theorem returnedOf_addTop (m : Mapping) :
    returnedOf attributes <+: returnedOf (addTop attributes m) := by
  unfold addTop
  split
  · exact List.prefix_rfl
  · exact (List.prefix_append _ _).map _

theorem returnedOf_addNested (makeParents : Bool) (m : Mapping) :
    returnedOf attributes <+: returnedOf (addNested makeParents attributes m) := by
  have hextended : ∀ a, ((extendParent m a).name, (extendParent m a).returned) =
      (a.name, a.returned) := by
    intro a
    unfold extendParent
    split <;> rfl
  unfold addNested
  split
  · exact List.prefix_rfl
  · split
    · rename_i parent _ _
      have hsame : returnedOf (modifyNamed parent (extendParent m) attributes) =
          returnedOf attributes := map_modifyNamed parent hextended attributes
      exact hsame ▸ List.prefix_rfl
    · split
      · exact (List.prefix_append _ _).map _
      · exact List.prefix_rfl

/-- Mapped attributes are added behind the others, of which they leave as it is when they are
returned. -/
theorem returnedOf_addMappings (makeParents : Bool) (ms : List Mapping) :
    returnedOf attributes <+: returnedOf (addMappings makeParents attributes ms) := by
  have htops : returnedOf attributes <+:
      returnedOf ((ms.filter fun m => !m.isNested).foldl addTop attributes) :=
    List.foldlRecOn (motive := fun as => returnedOf attributes <+: returnedOf as) _ _
      List.prefix_rfl fun _ has m _ => has.trans (returnedOf_addTop m)
  exact List.foldlRecOn (motive := fun as => returnedOf attributes <+: returnedOf as) _ _ htops
    fun _ has m _ => has.trans (returnedOf_addNested makeParents m)

/-- A property that the backend hides is published as one that is never returned, also where an
attribute is mapped to it. -/
theorem returned_of_hidden {p : PropertyMap} {name : String} {definition : Fields Value}
    (hdefined : (name, .object definition) ∈ p.fields)
    (hopen : name ∉ coveredNames ∧ isInternal name = false)
    (hhidden : definition.get? "viewable" = some (.bool false)) (c : MappingConfig) :
    ∃ d, compile .user (some p.fields) c = .ok d ∧
      ∃ a ∈ d.attributes, a.name = name ∧ a.returned = .never := by
  have hproperty : propertyAttribute name definition ∈ propertyAttributes p.fields := by
    refine List.mem_filterMap.2 ⟨_, hdefined, ?_⟩
    unfold propertyAttribute?
    rw [if_neg (by simp [hopen])]
    rfl
  have hnever : (propertyAttribute name definition).returned = .never := by
    simp [propertyAttribute, hhidden]
  obtain ⟨d, hd, -, hattributes⟩ := compile_eq .user (some p) c
  have hreturned : (name, Returned.never) ∈ returnedOf d.attributes := by
    rw [hattributes, ← hnever]
    exact (returnedOf_addMappings false c.coreUser).subset
      (List.mem_map_of_mem (List.mem_append_right _ hproperty))
  obtain ⟨a, ha, hpair⟩ := List.mem_map.1 hreturned
  exact ⟨d, hd, a, ha, (Prod.mk.inj hpair).1, (Prod.mk.inj hpair).2⟩

end Schema

/-! ## The service -/

namespace Service

namespace Setup

variable (s : Setup) (kind : Kind)

/-- The setup for mappings with the usual characteristics. -/
def withDefaults : Setup := { s with config := s.config.withDefaults }

theorem table_withDefaults : s.withDefaults.table kind = s.table kind := by
  cases kind with
  | user => exact Filter.PathTable.user_withDefaults s.config
  | group => rfl

theorem translateFilter_withDefaults (filter : Value) :
    s.withDefaults.translateFilter kind filter = s.translateFilter kind filter := by
  unfold translateFilter
  rw [table_withDefaults]

theorem resourceOf_withDefaults (baseUrl : String) (object : Value) :
    s.withDefaults.resourceOf kind baseUrl object = s.resourceOf kind baseUrl object := by
  unfold resourceOf withDefaults
  simp only [User.ofBackend_withDefaults]

theorem attributesOf_withDefaults (resource : Value) :
    s.withDefaults.attributesOf kind resource = s.attributesOf kind resource := by
  unfold attributesOf withDefaults
  simp only [User.toBackend_withDefaults]

theorem patchOperations_withDefaults (request : Value) :
    s.withDefaults.patchOperations kind request = s.patchOperations kind request := by
  have hconverter : s.withDefaults.converter kind = (s.converter kind).withDefaults := by
    unfold converter
    rw [table_withDefaults]
    rfl
  unfold patchOperations
  rw [hconverter, Patch.Converter.convert_withDefaults]

/-- Whatever the mappings say of their attributes, calls are answered as if they said nothing. -/
theorem perform_withDefaults (type : String) (caller : Caller) (call : Call) :
    s.withDefaults.perform type caller call = s.perform type caller call := by
  have hresource : ∀ kind, s.withDefaults.resourceOf kind caller.baseUrl =
      s.resourceOf kind caller.baseUrl :=
    fun kind => funext (s.resourceOf_withDefaults kind caller.baseUrl)
  have hget : ∀ kind id, s.withDefaults.get kind id caller = s.get kind id caller := by
    intro kind id
    unfold get
    simp only [hresource]
    rfl
  unfold perform
  cases Kind.ofText? type with
  | none => rfl
  | some kind =>
    cases call with
    | list query =>
      simp only [answer, list, translateFilter_withDefaults, hresource]
      rfl
    | get id => exact hget kind id
    | create resource =>
      simp only [answer, create, attributesOf_withDefaults, hresource]
      rfl
    | replace id resource revision =>
      simp only [answer, replace, attributesOf_withDefaults, hresource]
      rfl
    | patch id request revision =>
      simp only [answer, patch, patchOperations_withDefaults, hresource, hget]
      rfl
    | delete id revision => rfl
    | translate filter => simp only [answer, translateFilter_withDefaults]

end Setup

/-! ## What is shown and what is sent -/

open Backend Backend.Exchange
open Patch (request wholeEntry)

theorem mem_keys_toBackend {c : MappingConfig} {m : Mapping} (hm : m ∈ c.mappings)
    {resource : Fields Value} (h : (User.mapped? resource m).isSome = true) :
    m.backendAttribute ∈ (User.toBackend c resource).keys := by
  obtain ⟨v, hv⟩ := Option.isSome_iff_exists.1 h
  have hentry : (m.backendAttribute, v) ∈ User.mappedEntries resource c.mappings :=
    List.mem_filterMap.2 ⟨m, hm, by rw [hv]; rfl⟩
  rw [← Fields.isSome_get?_iff, User.get?_toBackend, Fields.isSome_get?_iff]
  exact List.mem_map_of_mem (List.mem_reverse.2 (List.mem_append_right _ hentry))

/-- Where attributes stand apart, a user shows each of which the backend has a value. -/
theorem Setup.shows_mapped {s : Setup} (hc : s.config.Separate) (baseUrl : String)
    (user : Fields Value) :
    ∃ resource, s.resourceOf .user baseUrl (.object user) = .ok (.object resource) ∧
      ∀ m ∈ s.config.mappings, at? m.place resource = Value.given? user m.backendAttribute := by
  obtain ⟨resource, hresource, hshows⟩ := User.shows_ofBackend hc baseUrl user
  refine ⟨resource, ?_, hshows.mapped⟩
  unfold Setup.resourceOf
  simp only [hresource]

/-- The requests of users with an attribute carry it: a whole user is created and replaced with
backend attributes of which it is one, and a partial one is patched with an operation on it. -/
structure Setup.SendsAttribute (s : Setup) (name : String) (resource : Fields Value) : Prop where
  whole : IsWhole .user (.object resource) → ∃ attributes : Fields Value, name ∈ attributes.keys ∧
    ∀ t baseUrl c, t ≠ "" →
      AsksOnce (s.create .user (.object resource) ⟨some t, baseUrl⟩) c
        (Objects.createRequest c (s.object .user) (.object attributes) t) ∧
      ∀ id revision, AsksOnce (s.replace .user id (.object resource) revision ⟨some t, baseUrl⟩) c
        (Objects.replaceRequest c (s.object .user) id (.object attributes) revision t)
  partly : ∀ verb, verb ≠ .remove → ∃ operations : List Patch.Operation,
    (∃ o ∈ operations, o.verb = verb ∧ o.field = "/" ++ name) ∧
    ∀ t baseUrl c id revision, t ≠ "" →
      AsksOnce (s.patch .user id (request [wholeEntry verb resource]) revision ⟨some t, baseUrl⟩) c
        (Objects.patchRequest c (s.object .user) id
          (.array (operations.map Patch.Operation.toValue)) revision t)

/-- An attribute that a user has is sent. -/
theorem Setup.sendsAttribute_mapped {s : Setup} {m : Mapping} (hm : m ∈ s.config.mappings)
    {resource : Fields Value} (h : (User.mapped? resource m).isSome = true) :
    s.SendsAttribute m.backendAttribute resource where
  whole hwhole := by
    have hkey := mem_keys_toBackend hm h
    have hattributes : s.attributesOf .user (.object resource) =
        .ok (User.toBackend s.config resource) := by
      obtain ⟨_, hmembers, hschema, htext⟩ := hwhole
      cases hmembers
      simp [Setup.attributesOf, hschema, htext]
    exact ⟨_, hkey, fun t baseUrl c ht => ⟨asksOnce_create ht baseUrl c hattributes,
      fun id revision => asksOnce_replace ht baseUrl c id hattributes revision⟩⟩
  partly verb hverb := by
    have htype : (s.converter .user).type ≠ .group := fun h => by cases h
    have hconverted := Patch.Converter.convert_whole htype hverb resource
    obtain ⟨⟨name, v⟩, hv, hname⟩ := List.mem_map.1 (mem_keys_toBackend hm h)
    have hoperation : (⟨verb, "/" ++ name, some v⟩ : Patch.Operation) ∈
        Patch.Converter.operationsOf verb ((s.converter .user).attributesOf resource) :=
      List.mem_map_of_mem hv
    refine ⟨_, ⟨_, hoperation, rfl, congrArg ("/" ++ ·) hname⟩,
      fun t baseUrl c id revision ht => ?_⟩
    have hasks := asksOnce_patch ht baseUrl c id hconverted revision
    rwa [if_neg (by simpa using List.ne_nil_of_mem hoperation)] at hasks

/-- Calls are answered as if no mapping declared anything of its attribute. Where attributes stand
apart, a user shows each of which the backend has a value; each that a user has is sent. -/
theorem characteristics_unenforced (s : Setup) :
    (∀ type caller call, s.withDefaults.perform type caller call = s.perform type caller call) ∧
    (s.config.Separate → ∀ baseUrl user, ∃ resource,
      s.resourceOf .user baseUrl (.object user) = .ok (.object resource) ∧
      ∀ m ∈ s.config.mappings, at? m.place resource = Value.given? user m.backendAttribute) ∧
    ∀ m ∈ s.config.mappings, ∀ resource, (User.mapped? resource m).isSome = true →
      s.SendsAttribute m.backendAttribute resource :=
  ⟨s.perform_withDefaults, Setup.shows_mapped, fun _ hm _ h => Setup.sendsAttribute_mapped hm h⟩

/-! ## Hidden attributes -/

/-- A number that is declared never to be returned, nor to be written. -/
def hiddenNumber : Mapping :=
  { path := "employeeNumber", schema := Urn.enterpriseUser
    backendAttribute := "frIndexedString1", mutability := .readOnly, returned := .never }

/-- An answer that is mapped under the name of its property. -/
def hiddenAnswer : Mapping :=
  { path := "secretAnswer", schema := Urn.coreUser, backendAttribute := "secretAnswer" }

/-- The service with both attributes. -/
def hiddenSetup : Setup := ⟨{}, ⟨[hiddenNumber, hiddenAnswer], by decide⟩⟩

/-- The properties of users. The backend hides the answer. -/
def hiddenProperties : Schema.PropertyMap where
  fields :=
    [("_id", .object [("type", .string "string")]),
     ("secretAnswer", .object [("type", .string "string"), ("viewable", .bool false)])]
  distinct := by decide

/-- A backend user with both attributes. -/
def hiddenUser : Fields Value :=
  [("_id", .string "u1"), ("frIndexedString1", .string "E-42"), ("secretAnswer", .string "blue")]

/-- A whole user resource with a number. -/
def numberedUser : Fields Value :=
  [("schemas", .texts [Urn.coreUser]), ("userName", .string "ada"),
   (Urn.enterpriseUser, .object [("employeeNumber", .string "x")])]

theorem separate_hiddenSetup : hiddenSetup.config.Separate := ⟨by decide, by decide, by decide⟩

theorem mapped_numberedUser : (User.mapped? numberedUser hiddenNumber).isSome = true := by decide

theorem characteristics_unenforced_hidden :
    hiddenSetup.config.Separate ∧
    (∃ resource, hiddenSetup.resourceOf .user "/scim/v2" (.object hiddenUser) =
        .ok (.object resource) ∧
      at? hiddenNumber.place resource = some (.string "E-42")) ∧
    hiddenSetup.SendsAttribute "frIndexedString1" numberedUser := by
  have hm : hiddenNumber ∈ hiddenSetup.config.mappings := List.mem_cons_self
  obtain ⟨-, hshows, hsends⟩ := characteristics_unenforced hiddenSetup
  obtain ⟨resource, hresource, hshown⟩ := hshows separate_hiddenSetup "/scim/v2" hiddenUser
  exact ⟨separate_hiddenSetup, ⟨resource, hresource, hshown hiddenNumber hm⟩,
    hsends hiddenNumber hm numberedUser mapped_numberedUser⟩

/-- The extension declares a number that is never returned and cannot be written, and the user
schema an answer that is never returned. A user shows both, and to create a user sends the number.
-/
theorem hidden_attributes_pass :
    (∃ d, Schema.compileExtension hiddenSetup.config = .ok (some d) ∧ ∃ a ∈ d.attributes,
      a.name = "employeeNumber" ∧ a.returned = .never ∧ a.mutability = .readOnly) ∧
    (∃ d, Schema.compile .user (some hiddenProperties.fields) hiddenSetup.config = .ok d ∧
      ∃ a ∈ d.attributes, a.name = "secretAnswer" ∧ a.returned = .never) ∧
    (∃ resource, hiddenSetup.resourceOf .user "/scim/v2" (.object hiddenUser) =
        .ok (.object resource) ∧
      at? [Urn.enterpriseUser, "employeeNumber"] resource = some (.string "E-42") ∧
      at? ["secretAnswer"] resource = some (.string "blue")) ∧
    ∃ attributes : Fields Value, "frIndexedString1" ∈ attributes.keys ∧
      AsksOnce (hiddenSetup.create .user (.object numberedUser) ⟨some "token", ""⟩)
        (.ofAddress usualAddress)
        (Objects.createRequest (.ofAddress usualAddress) "alpha_user" (.object attributes)
          "token") := by
  have hnumber : hiddenNumber ∈ hiddenSetup.config.mappings := List.mem_cons_self
  have hanswer : hiddenAnswer ∈ hiddenSetup.config.mappings :=
    List.mem_cons_of_mem _ List.mem_cons_self
  refine ⟨?_, ?_, ?_, ?_⟩
  · have henterprise : hiddenSetup.config.enterprise = [hiddenNumber] := by
      have hkinds : hiddenNumber.isEnterprise = true ∧ hiddenAnswer.isEnterprise = false := by
        decide
      simp [MappingConfig.enterprise, hiddenSetup, hkinds]
    have hadded : Schema.addMappings true [] [hiddenNumber] = [hiddenNumber.definition] := by
      have htop : hiddenNumber.isNested = false := by decide
      simp [Schema.addMappings, htop, Schema.addTop, Schema.named]
    obtain ⟨d?, hd, heach, hnone⟩ := Schema.compileExtension_eq hiddenSetup.config
    rw [henterprise, hadded] at heach hnone
    cases d? with
    | none => exact absurd (hnone.1 rfl) (List.cons_ne_nil _ _)
    | some d =>
      refine ⟨d, hd, hiddenNumber.definition, ?_, by decide, rfl, rfl⟩
      rw [(heach d rfl).2]
      exact List.mem_singleton_self _
  · exact Schema.returned_of_hidden (List.mem_cons_of_mem _ List.mem_cons_self)
      (by decide) rfl hiddenSetup.config
  · obtain ⟨resource, hresource, hshown⟩ :=
      Setup.shows_mapped separate_hiddenSetup "/scim/v2" hiddenUser
    have hplaces : hiddenNumber.place = [Urn.enterpriseUser, "employeeNumber"] ∧
        hiddenAnswer.place = ["secretAnswer"] := by decide
    refine ⟨resource, hresource, ?_, ?_⟩
    · rw [← hplaces.1, hshown hiddenNumber hnumber]
      rfl
    · rw [← hplaces.2, hshown hiddenAnswer hanswer]
      rfl
  · obtain ⟨attributes, hkey, hasks⟩ :=
      (Setup.sendsAttribute_mapped hnumber mapped_numberedUser).whole
        ⟨numberedUser, rfl, by decide, by decide⟩
    exact ⟨attributes, hkey, (hasks "token" "" _ (by decide)).1⟩

end Service

end ScimBridge
