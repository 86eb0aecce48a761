import ScimBridge.Proofs.Resource.Names
import ScimBridge.Proofs.Schema.Declared

/-!
# Users and the schemas they name

A user resource conforms to the published schemas if it lists schemas that are published and shows
names that they declare (`Conforms`). The compiler and the resources read the same mappings: the
compiler passes over a nested attribute whose parent it does not know, and the resource shows it all
the same. So the users that a property map covers conform iff each mapped attribute that they may
have is rooted in a declared one, and none takes the place of the schemas (`conforms_iff_rooted`).
Attributes at the top are rooted (`rooted_of_top`). An attribute of the extension with three names,
on its own, is not: its users list an extension that is not published
(`deep_attribute_unpublished`).
-/

namespace ScimBridge

open User

namespace Schema

/-! ## Conformance -/

/-- A property map defines all fields of a user. -/
def Covers (properties user : Fields Value) : Prop := ∀ name ∈ user.keys, Defines properties name

/-- A resource lists published schemas, and the names in it are declared there. -/
structure Conforms (documents : Fields SchemaDocument) (resource : Fields Value) : Prop where
  schemas : ∃ urns, resource.get? "schemas" = some (.texts urns) ∧
    ∀ urn ∈ urns, Publishes documents urn
  core : ∀ name ∈ resource.keys, name ≠ "schemas" → name ≠ Urn.enterpriseUser →
    Declares documents Urn.coreUser name
  extension : ∀ v, resource.get? Urn.enterpriseUser = some v → ∃ members, v = .object members ∧
    ∀ name ∈ Fields.keys members, Declares documents Urn.enterpriseUser name

/-- Each mapped attribute with a defined property begins with a declared name, and none takes the
place of the schemas. -/
structure Rooted (properties : Fields Value) (c : MappingConfig) : Prop where
  schemas : ∀ m ∈ c.mappings, Defines properties m.backendAttribute → ¬ TakesSchemas m
  core : ∀ m ∈ c.mappings, Defines properties m.backendAttribute → m.isEnterprise = false →
    m.root ≠ "schemas" → CoreName properties c m.root
  extension : ∀ m ∈ c.mappings, Defines properties m.backendAttribute → m.isEnterprise = true →
    ExtensionName c m.root

/-- Attributes that are mapped at the top of the core schema or of the extension are rooted. -/
theorem rooted_of_top {properties : Fields Value} {c : MappingConfig}
    (htop : ∀ m ∈ c.mappings, m.depth = 1 ∧ m.path ≠ "schemas")
    (hkind : ∀ m ∈ c.mappings, m.isEnterprise = false → m.isCoreUser = true) :
    Rooted properties c where
  schemas m hm _ htakes := by
    obtain ⟨hdepth, hpath⟩ := htop m hm
    have hnested : m.isNested = false := eq_false_of_ne_true fun h => by
      have := Mapping.isNested_iff.1 h
      omega
    unfold TakesSchemas at htakes
    cases he : m.isEnterprise with
    | true =>
      rw [Mapping.place_of_enterprise he] at htakes
      exact absurd (List.cons.inj htakes).1 (by decide)
    | false =>
      rw [Mapping.place_of_core he, Mapping.segments_of_not_isNested hnested] at htakes
      exact hpath (List.cons.inj htakes).1
  core m hm _ he _ := .inr (.inr ⟨m, hm, hkind m hm he, rfl, (htop m hm).1⟩)
  extension m hm _ he := ⟨m, hm, he, rfl, by rw [(htop m hm).1]; decide⟩

variable {p : PropertyMaps} {c : MappingConfig} {user : Fields Value}

theorem defines_of_gives {properties : Fields Value} (hcovers : Covers properties user) {m : Mapping}
    (h : Gives user m) : Defines properties m.backendAttribute := by
  obtain ⟨v, hv⟩ := Option.isSome_iff_exists.1 h
  exact hcovers _ (Fields.isSome_get?_iff.1 (Option.isSome_of_eq_some (get?_of_given? hv)))

/-- What a resource of a covered user begins with is declared, but for the schemas. -/
theorem coreName_of_begun {properties : Fields Value} (hcovers : Covers properties user)
    {name : String} (hname : name ∈ (begun c (view c user)).resource.keys) (hne : name ≠ "schemas") :
    CoreName properties c name := by
  obtain ⟨d, hd⟩ := Option.isSome_iff_exists.1 (Fields.isSome_get?_iff.2 hname)
  have hplaces : ∀ place ∈ usualPlaces, ∀ n ∈ place, place.length = 1 →
      n = "schemas" ∨ n ∈ namesOf coreUser ∨
        n ∈ passedThrough ∧ n ∉ coveredNames ∧ isInternal n = false := by decide
  have hread : ∀ n ∈ passedThrough, n ∈ readNames .empty := by decide
  rcases usual_or_name (Fields.mem_of_get? hd) with ⟨hplace, -⟩ | ⟨rfl, -⟩
  · rcases hplaces _ hplace name List.mem_cons_self rfl with hschemas | hcore | ⟨hpassed, hopen⟩
    · exact absurd hschemas hne
    · exact .inl hcore
    · -- a passed attribute that no core attribute covers is a published property
      rw [get?_begun (mem_usualDrafts_of_passed hpassed)] at hd
      obtain ⟨v, hv, -⟩ := Option.map_eq_some_iff.1 hd
      rw [given?_view (mem_readNames_of_usual (hread name hpassed))] at hv
      have hkey := Fields.isSome_get?_iff.1 (Option.isSome_of_eq_some (get?_of_given? hv))
      exact .inr (.inl ⟨hcovers name hkey, hopen⟩)
  · exact .inl (by decide)

/-- Where attributes are rooted, the users that a property map covers conform. -/
theorem Rooted.conforms {userSchema group : SchemaDocument} {extension? : Option SchemaDocument}
    (hpublished : Published p c userSchema extension? group) (h : Rooted p.userFields c)
    (hcovers : Covers p.userFields user) {baseUrl : String} {resource : Fields Value}
    (hresource : ofBackend baseUrl c user = .ok resource) :
    Conforms (documentsOf userSchema extension? group) resource where
  schemas := by
    refine ⟨_, schemas_ofBackend hresource fun m hm hgives =>
      h.schemas m hm (defines_of_gives hcovers hgives), fun urn hurn => ?_⟩
    rcases List.mem_cons.1 hurn with rfl | hurn
    · exact hpublished.publishes_core
    · split at hurn
      · rename_i huses
        obtain ⟨m, hm, hgives⟩ := List.any_eq_true.1 huses
        obtain ⟨he, hgives⟩ := Bool.and_eq_true_iff.1 hgives
        have hname := h.extension m hm (defines_of_gives hcovers hgives) he
        obtain ⟨entry, hentry, hid, -⟩ := hpublished.declares_extension_iff.2 hname
        exact ⟨entry, hentry, hid.trans (List.mem_singleton.1 hurn).symm⟩
      · cases hurn
  core name hname hschemas hextension := by
    rw [hpublished.declares_core_iff]
    rcases (mem_keys_ofBackend hresource hextension).1 hname with
      rfl | hbegun | ⟨m, hm, he, hgives, rfl⟩
    · exact .inl (by decide)
    · exact coreName_of_begun hcovers hbegun hschemas
    · exact h.core m hm (defines_of_gives hcovers hgives) he hschemas
  extension v hv := by
    rcases extension_ofBackend hresource with ⟨members, hmembers, hnames⟩ | ⟨hnone, -⟩
    · rw [hmembers] at hv
      refine ⟨members, (Option.some.inj hv).symm, fun name hname => ?_⟩
      obtain ⟨m, hm, he, hgives, rfl⟩ := (hnames name).1 hname
      exact hpublished.declares_extension_iff.2
        (h.extension m hm (defines_of_gives hcovers hgives) he)
    · rw [hnone] at hv
      cases hv

/-! ## Attributes that are not rooted -/

/-- A user with a text in one attribute. -/
def userOf (backendAttribute : String) : Fields Value := [(backendAttribute, .string "x")]

theorem get?_userOf {backendAttribute name : String} {v : Value}
    (h : (userOf backendAttribute).get? name = some v) : v = .string "x" := by
  have hmem := Fields.mem_of_get? h
  rw [userOf, List.mem_singleton] at hmem
  exact (Prod.mk.inj hmem).2

theorem gives_userOf (m : Mapping) : Gives (userOf m.backendAttribute) m := by
  have hget : (userOf m.backendAttribute).get? m.backendAttribute = some (.string "x") := by
    simp [userOf, Fields.get?_cons]
  unfold Gives Value.given?
  rw [hget]
  rfl

/-- If the users that a property map covers conform, attributes are rooted. -/
theorem rooted_of_conforms {userSchema group : SchemaDocument}
    {extension? : Option SchemaDocument} (hpublished : Published p c userSchema extension? group)
    (h : ∀ (user resource : Fields Value) (baseUrl : String), Covers p.userFields user →
      ofBackend baseUrl c user = .ok resource →
      Conforms (documentsOf userSchema extension? group) resource) :
    Rooted p.userFields c := by
  -- each attribute is shown by a user that has nothing else
  have hshown : ∀ m : Mapping, Defines p.userFields m.backendAttribute → ∃ resource,
      ofBackend "" c (userOf m.backendAttribute) = .ok resource ∧
      Conforms (documentsOf userSchema extension? group) resource := by
    intro m hdefines
    have hflat : ∀ name v, (userOf m.backendAttribute).get? name = some v → v.members? = none := by
      intro name v hv
      rw [get?_userOf hv]
      rfl
    obtain ⟨resource, hresource⟩ := exists_ofBackend_of_flat (c := c) hflat ""
    refine ⟨resource, hresource, h _ _ _ (fun name hname => ?_) hresource⟩
    rwa [List.mem_singleton.1 hname]
  constructor
  · intro m hm hdefines htakes
    obtain ⟨resource, hresource, hconforms⟩ := hshown m hdefines
    have htext : resource.get? "schemas" = some (.string "x") :=
      schemas_ofBackend_taken hresource rfl
        (fun m' _ w hw => get?_userOf (get?_of_given? hw)) ⟨m, hm, gives_userOf m, htakes⟩
    obtain ⟨urns, hurns, -⟩ := hconforms.schemas
    rw [htext] at hurns
    cases hurns
  · intro m hm hdefines he hne
    obtain ⟨resource, hresource, hconforms⟩ := hshown m hdefines
    have hroot : m.root ∈ resource.keys :=
      (mem_keys_ofBackend hresource m.root_ne_enterpriseUser).2
        (.inr (.inr ⟨m, hm, he, gives_userOf m, rfl⟩))
    exact hpublished.declares_core_iff.1
      (hconforms.core m.root hroot hne m.root_ne_enterpriseUser)
  · intro m hm hdefines he
    obtain ⟨resource, hresource, hconforms⟩ := hshown m hdefines
    rcases extension_ofBackend hresource with ⟨members, hmembers, hnames⟩ | ⟨-, hnot⟩
    · obtain ⟨members', hmembers', hdeclared⟩ := hconforms.extension _ hmembers
      cases hmembers'
      exact hpublished.declares_extension_iff.1
        (hdeclared m.root ((hnames m.root).2 ⟨m, hm, he, gives_userOf m, rfl⟩))
    · exact absurd (gives_userOf m) (hnot m hm he)

/-- All users that a property map covers conform to the schemas that are compiled from it iff each
mapped attribute that they may have is rooted in a declared one, and none takes the place of the
schemas. -/
theorem conforms_iff_rooted (p : PropertyMaps) (c : MappingConfig) :
    ∃ documents, compileAll p.properties c = .ok documents ∧
      ((∀ (user resource : Fields Value) (baseUrl : String), Covers p.userFields user →
          ofBackend baseUrl c user = .ok resource → Conforms documents resource) ↔
        Rooted p.userFields c) := by
  obtain ⟨userSchema, extension?, group, hpublished⟩ := exists_published p c
  refine ⟨_, hpublished.compiled, rooted_of_conforms hpublished, ?_⟩
  intro h user resource baseUrl hcovers hresource
  exact h.conforms hpublished hcovers hresource

/-- The only attribute of the extension lies two objects deep. Its users list the extension, which is
not published. -/
theorem deep_attribute_unpublished :
    let definition : Value := .object [("type", .string "string")]
    let p : PropertyMaps :=
      { user := some ⟨[("_id", definition), ("frIndexedString1", definition)], by decide⟩ }
    let reference : Mapping :=
      { path := "manager.ref.value", schema := Urn.enterpriseUser
        backendAttribute := "frIndexedString1" }
    let c : MappingConfig := ⟨[reference], by decide⟩
    let user : Fields Value := [("_id", .string "u1"), ("frIndexedString1", .string "E-42")]
    Covers p.userFields user ∧ ∃ documents resource,
      compileAll p.properties c = .ok documents ∧ ofBackend "/scim/v2" c user = .ok resource ∧
      resource.get? "schemas" = some (.texts [Urn.coreUser, Urn.enterpriseUser]) ∧
      ¬ Publishes documents Urn.enterpriseUser ∧ ¬ Conforms documents resource := by
  intro definition p reference c user
  have hcovers : Covers p.userFields user := by
    intro name hname
    simp only [user, Fields.keys, List.map_cons, List.map_nil, List.mem_cons, List.not_mem_nil,
      or_false] at hname
    rcases hname with rfl | rfl
    · exact ⟨definition, rfl, rfl⟩
    · exact ⟨definition, rfl, rfl⟩
  obtain ⟨userSchema, extension?, group, hpublished⟩ := exists_published p c
  obtain ⟨resource, hresource⟩ : ∃ resource, ofBackend "/scim/v2" c user = .ok resource :=
    exists_ofBackend_of_flat (fun name v hv => by
      have hmem := Fields.mem_of_get? hv
      simp only [user, List.mem_cons, Prod.mk.injEq, List.not_mem_nil, or_false] at hmem
      rcases hmem with ⟨-, rfl⟩ | ⟨-, rfl⟩ <;> rfl) "/scim/v2"
  have hschemas : resource.get? "schemas" = some (.texts [Urn.coreUser, Urn.enterpriseUser]) := by
    have huses : usesEnterprise c user = true := by decide
    rw [schemas_ofBackend hresource, schemasOf, huses]
    · rfl
    · intro m hm _
      rw [List.mem_singleton.1 hm]
      exact (by decide : reference.place ≠ ["schemas"])
  have hunpublished : ¬ Publishes (documentsOf userSchema extension? group) Urn.enterpriseUser := by
    rintro ⟨entry, hentry, hid⟩
    have hnone : extension? = none := hpublished.extension_none.2 (by decide)
    have hfound := (hpublished.found hentry).2 hid
    rw [hnone] at hfound
    cases hfound
  refine ⟨hcovers, _, resource, hpublished.compiled, hresource, hschemas, hunpublished, ?_⟩
  intro hconforms
  obtain ⟨urns, hurns, hall⟩ := hconforms.schemas
  have htexts : [Urn.coreUser, Urn.enterpriseUser] = urns :=
    List.map_injective_iff.2 (fun _ _ h => Value.string.inj h)
      (Value.array.inj (Option.some.inj (hschemas.symm.trans hurns)))
  exact hunpublished (hall _ (htexts ▸ by simp))

end Schema

end ScimBridge
