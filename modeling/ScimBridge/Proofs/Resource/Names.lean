import ScimBridge.Proofs.Outcomes
import ScimBridge.Proofs.Resource.Written

/-!
# The names in a user resource

A write adds the first name of its path to the names at the top of a resource and takes none away
(`Making.mem_keys_write`), wherever its path leads from there. So the names at the top are those that
the resource begins with, those of mapped attributes that are given, and that of the metadata
(`User.mem_keys_ofBackend`), and the names in the object of the extension are those of its attributes
that are given (`User.extension_ofBackend`). The schemas stand as they are begun, unless an attribute
is mapped to their place (`User.schemas_ofBackend`).

A user without objects always has a resource (`User.exists_ofBackend_of_flat`).
-/

namespace ScimBridge

open Resource

/-! ## Writing -/

theorem Resource.mem_keys_writeAt {α : Type} [Nested α] (v : α) (name : String)
    (rest : List String) (members : Fields α) (other : String) :
    other ∈ Fields.keys (writeAt v (name :: rest) members) ↔
      other ∈ members.keys ∨ other = name := by
  cases rest with
  | nil => exact (Fields.mem_keys_put members name other v).trans or_comm
  | cons next rest =>
    unfold writeAt
    split
    · exact (Fields.mem_keys_put members name other _).trans or_comm
    · rename_i w hw
      split
      · exact (Fields.mem_keys_put members name other _).trans or_comm
      · have hname : name ∈ members.keys :=
          Fields.isSome_get?_iff.1 (Option.isSome_of_eq_some hw)
        exact ⟨.inl, fun h => h.elim id fun heq => heq ▸ hname⟩

namespace Draft

variable {look : String → Option Value} {drafts : Fields Draft} {values : Fields Value}

theorem keys_expandMembers (h : expandMembers look drafts = some values) :
    values.keys = drafts.keys := by
  induction drafts generalizing values with
  | nil =>
    cases h
    rfl
  | cons p rest ih =>
    obtain ⟨v, values, -, hrest, rfl⟩ := exists_of_expandMembers_cons h
    exact congrArg (p.1 :: ·) (ih hrest)

/-- Wherever a node with a value is written, all nodes have values. -/
theorem exists_expandMembers_writeAt {d : Draft} {v : Value} (hd : d.expand look = some v)
    (names : List String) (h : expandMembers look drafts = some values) :
    ∃ values, expandMembers look (writeAt d names drafts) = some values := by
  induction names generalizing drafts values with
  | nil => exact ⟨_, h⟩
  | cons name names ih =>
    cases names with
    | nil => exact ⟨_, expandMembers_put hd h name⟩
    | cons next rest =>
      unfold writeAt
      split
      · obtain ⟨inner, hinner⟩ := ih (show expandMembers look [] = some [] from rfl)
        have hobject : (Draft.object _).expand look = some (.object inner) :=
          Option.map_eq_some_iff.2 ⟨inner, hinner, rfl⟩
        exact ⟨_, expandMembers_put hobject h name⟩
      · rename_i w hw
        split
        · rename_i inner hmembers
          obtain ⟨w', hw', -⟩ := expand_of_get? h hw
          rw [eq_object_of_members? hmembers] at hw'
          obtain ⟨innerValues, hvalues, -⟩ := Option.map_eq_some_iff.1 hw'
          obtain ⟨written, hwritten⟩ := ih hvalues
          have hobject : (Draft.object _).expand look = some (.object written) :=
            Option.map_eq_some_iff.2 ⟨written, hwritten, rfl⟩
          exact ⟨_, expandMembers_put hobject h name⟩
        · exact ⟨_, h⟩

end Draft

namespace Making

variable {m : Making} {shared : Fields (Fields Draft)} {members : Fields Draft}

/-- A path that leads into the object of an attribute begins with a name that is there. -/
theorem mem_keys_of_follow {name : String} {rest behind : List String}
    (h : (follow shared (name :: rest) none behind members).origin ≠ none) :
    name ∈ members.keys := by
  cases rest with
  | nil => exact absurd rfl h
  | cons next rest =>
    unfold follow at h
    split at h
    · rename_i hw
      exact Fields.isSome_get?_iff.1 (Option.isSome_of_eq_some hw)
    · rename_i hw
      exact Fields.isSome_get?_iff.1 (Option.isSome_of_eq_some hw)
    · exact absurd rfl h

/-- A write adds the first name of its path. -/
theorem mem_keys_write (name : String) (rest : List String) (d : Draft) (other : String) :
    other ∈ (m.write (name :: rest) d).resource.keys ↔
      other ∈ m.resource.keys ∨ other = name := by
  unfold write
  extract_lets place
  split
  · rename_i horigin
    rw [names_follow m.shared (name :: rest) [] m.resource horigin]
    exact mem_keys_writeAt d name rest m.resource other
  · rename_i origin horigin
    have hname : name ∈ m.resource.keys := mem_keys_of_follow (by rw [horigin]; simp)
    exact ⟨.inl, fun h => h.elim id fun heq => heq ▸ hname⟩

/-- Behind a value nothing is written. -/
theorem write_of_value {name next : String} {rest : List String} {v : Value}
    (h : m.resource.get? name = some (.value v)) (d : Draft) :
    m.write (name :: next :: rest) d = m := by
  have hfollow : (follow m.shared (name :: next :: rest) none [] m.resource).origin = none := by
    simp [follow, h]
  rw [write_of_follow m _ d hfollow, writeAt]
  simp only [h]
  rfl

/-- A write below the name of an object, or where nothing stands, leaves an object there, with one
more name in it. -/
theorem get?_write_object {name next : String} {rest : List String} {inner : Fields Draft}
    (h : m.resource.get? name = some (.object inner) ∨
      m.resource.get? name = none ∧ inner = []) (d : Draft) :
    ∃ written, (m.write (name :: next :: rest) d).resource.get? name = some (.object written) ∧
      ∀ other, other ∈ Fields.keys written ↔ other ∈ inner.keys ∨ other = next := by
  unfold write
  extract_lets place
  split
  · rename_i horigin
    rw [names_follow m.shared (name :: next :: rest) [] m.resource horigin]
    refine ⟨writeAt d (next :: rest) inner, ?_, mem_keys_writeAt d next rest inner⟩
    have hwrite : writeAt d (name :: next :: rest) m.resource =
        m.resource.put name (.object (writeAt d (next :: rest) inner)) := by
      rw [writeAt]
      rcases h with h | ⟨h, rfl⟩
      · simp only [h]
        rfl
      · simp only [h]
        rfl
    show (writeAt d (name :: next :: rest) m.resource).get? name = _
    rw [hwrite, Fields.get?_put_self]
  · rename_i origin horigin
    have hplace : place.origin ≠ none := by
      rw [horigin]
      simp
    rcases h with h | ⟨h, rfl⟩
    · refine ⟨inner, h, fun other => ⟨.inl, fun hother => hother.elim id fun heq => ?_⟩⟩
      have hinner : (follow m.shared (next :: rest) none [name] inner).origin ≠ none := by
        have hfollow : place = follow m.shared (next :: rest) none [name] inner := by
          simp only [place, follow, h]
        rwa [← hfollow]
      exact heq ▸ mem_keys_of_follow hinner
    · exact absurd (by simp [place, follow, h]) hplace

/-- Where nothing names an object of an attribute, no path leads into one. -/
theorem follow_of_expandMembers {look : String → Option Value} (hlook : ∀ origin, look origin = none)
    {names : List String} {values : Fields Value}
    (h : Draft.expandMembers look members = some values) (behind : List String) :
    (follow shared names none behind members).origin = none := by
  induction names generalizing behind members values with
  | nil => rfl
  | cons name names ih =>
    cases names with
    | nil => rfl
    | cons next rest =>
      unfold follow
      split
      · rename_i origin hw
        obtain ⟨v, hv, -⟩ := Draft.expand_of_get? h hw
        cases (hlook origin).symm.trans hv
      · rename_i inner hw
        obtain ⟨v, hv, -⟩ := Draft.expand_of_get? h hw
        obtain ⟨innerValues, hvalues, -⟩ := Option.map_eq_some_iff.1 hv
        exact ih hvalues _
      · rfl

theorem look?_of_nil (h : m.shared = []) : m.look? = fun _ => none := by
  funext origin
  rw [look?, h]
  rfl

end Making

/-! ## Mapped attributes -/

namespace User

variable {c : MappingConfig} {user object : Fields Value} {m : Making} {mappings : List Mapping}

/-- Whether the backend has a value for a mapped attribute. -/
def Gives (object : Fields Value) (mapping : Mapping) : Prop :=
  (Value.given? object mapping.backendAttribute).isSome = true

theorem writeMapped_cases (object : Fields Value) (m : Making) (mapping : Mapping) :
    (¬ Gives object mapping ∧ writeMapped object m mapping = m) ∨
      Gives object mapping ∧ ∃ v, Value.given? object mapping.backendAttribute = some v ∧
        writeMapped object m mapping =
          m.write mapping.place (Draft.place mapping.backendAttribute v) := by
  unfold Gives writeMapped
  cases hv : Value.given? object mapping.backendAttribute with
  | none => exact .inl ⟨by simp, rfl⟩
  | some v => exact .inr ⟨rfl, v, rfl, rfl⟩

theorem mem_keys_writeMapped {mapping : Mapping} {name : String}
    (hname : name ≠ Urn.enterpriseUser) :
    name ∈ (writeMapped object m mapping).resource.keys ↔ name ∈ m.resource.keys ∨
      mapping.isEnterprise = false ∧ Gives object mapping ∧ mapping.root = name := by
  rcases writeMapped_cases object m mapping with ⟨hnot, hwrite⟩ | ⟨hgives, v, -, hwrite⟩
  · rw [hwrite]
    simp [hnot]
  · rw [hwrite]
    cases he : mapping.isEnterprise with
    | true =>
      obtain ⟨rest, hplace⟩ := Mapping.exists_place_of_enterprise he
      rw [hplace, Making.mem_keys_write]
      simp [hname]
    | false =>
      obtain ⟨rest, hplace⟩ := Mapping.exists_place_of_core he
      rw [hplace, Making.mem_keys_write]
      simp [hgives, eq_comm]

/-- The names at the top are the former ones and those of mapped attributes that are given. -/
theorem mem_keys_run {name : String} (hname : name ≠ Urn.enterpriseUser) :
    name ∈ (mappings.foldl (writeMapped object) m).resource.keys ↔ name ∈ m.resource.keys ∨
      ∃ mapping ∈ mappings,
        mapping.isEnterprise = false ∧ Gives object mapping ∧ mapping.root = name :=
  Fields.foldl_iff (fun _ => True) (fun m : Making => name ∈ m.resource.keys)
    (fun mapping : Mapping =>
      mapping.isEnterprise = false ∧ Gives object mapping ∧ mapping.root = name)
    (fun _ _ _ _ => trivial) (fun _ _ _ _ => mem_keys_writeMapped hname) trivial

/-- Nothing stands at the place of the extension, or an object of its own. -/
def HoldsExtension (m : Making) (inner : Fields Draft) : Prop :=
  m.resource.get? Urn.enterpriseUser = some (.object inner) ∨
    m.resource.get? Urn.enterpriseUser = none ∧ inner = []

theorem HoldsExtension.step {inner : Fields Draft} (h : HoldsExtension m inner) (mapping : Mapping) :
    ∃ written, HoldsExtension (writeMapped object m mapping) written ∧
      ∀ name, name ∈ written.keys ↔ name ∈ inner.keys ∨
        mapping.isEnterprise = true ∧ Gives object mapping ∧ mapping.root = name := by
  rcases writeMapped_cases object m mapping with ⟨hnot, hwrite⟩ | ⟨hgives, v, -, hwrite⟩
  · exact ⟨inner, hwrite.symm ▸ h, by simp [hnot]⟩
  · rw [hwrite]
    cases he : mapping.isEnterprise with
    | true =>
      obtain ⟨rest, hplace⟩ := Mapping.exists_place_of_enterprise he
      rw [hplace]
      obtain ⟨written, hwritten, hkeys⟩ :=
        Making.get?_write_object h (Draft.place mapping.backendAttribute v)
      exact ⟨written, .inl hwritten, by simp [hkeys, hgives, eq_comm]⟩
    | false =>
      obtain ⟨rest, hplace⟩ := Mapping.exists_place_of_core he
      have hother := Making.get?_write_of_ne (m := m) mapping.root_ne_enterpriseUser.symm rest
        (Draft.place mapping.backendAttribute v)
      refine ⟨inner, ?_, by simp⟩
      unfold HoldsExtension
      rwa [hplace, hother]

/-- The names in the object of the extension are the former ones and those of its attributes that
are given. -/
theorem HoldsExtension.run {inner : Fields Draft} (h : HoldsExtension m inner)
    (mappings : List Mapping) :
    ∃ written, HoldsExtension (mappings.foldl (writeMapped object) m) written ∧
      ∀ name, name ∈ written.keys ↔ name ∈ inner.keys ∨
        ∃ mapping ∈ mappings,
          mapping.isEnterprise = true ∧ Gives object mapping ∧ mapping.root = name := by
  induction mappings generalizing m inner with
  | nil => exact ⟨inner, h, by simp⟩
  | cons mapping rest ih =>
    obtain ⟨next, hnext, hkeys⟩ := h.step mapping
    obtain ⟨written, hwritten, hall⟩ := ih hnext
    exact ⟨written, hwritten, fun name => by rw [hall, hkeys, List.exists_mem_cons_iff, or_assoc]⟩

/-! ## The schemas -/

/-- Whether an attribute is mapped to the place of the schemas. -/
def TakesSchemas (mapping : Mapping) : Prop := mapping.place = ["schemas"]

theorem schemas_writeMapped {mapping : Mapping} {v : Value}
    (h : m.resource.get? "schemas" = some (.value v))
    (hapart : Gives object mapping → ¬ TakesSchemas mapping) :
    (writeMapped object m mapping).resource.get? "schemas" = some (.value v) := by
  rcases writeMapped_cases object m mapping with ⟨-, hwrite⟩ | ⟨hgives, w, -, hwrite⟩
  · rwa [hwrite]
  · rw [hwrite]
    obtain ⟨first, rest, hplace⟩ := List.exists_cons_of_ne_nil mapping.place_ne_nil
    have hne := hapart hgives
    unfold TakesSchemas at hne
    rw [hplace] at hne ⊢
    by_cases hfirst : first = "schemas"
    · subst hfirst
      cases rest with
      | nil => exact absurd rfl hne
      | cons next rest => rwa [Making.write_of_value h]
    · rwa [Making.get?_write_of_ne (Ne.symm hfirst)]

/-- A value that an attribute gives takes the place of the schemas. -/
theorem schemas_taken {mapping : Mapping} (h : TakesSchemas mapping) {v : Value}
    (hv : Value.given? object mapping.backendAttribute = some v)
    (hplain : v.members? = none) :
    (writeMapped object m mapping).resource.get? "schemas" = some (.value v) := by
  have hplace : Draft.place mapping.backendAttribute v = .value v := by
    cases v with
    | object members => cases hplain
    | _ => rfl
  rcases writeMapped_cases object m mapping with ⟨hnot, -⟩ | ⟨-, w, hw, hwrite⟩
  · exact absurd (Option.isSome_of_eq_some hv) hnot
  · rw [hv] at hw
    cases hw
    rw [hwrite, h, hplace]
    exact Making.get?_write_self _ _

/-- The schemas stand as they are begun, unless an attribute that is given takes their place. -/
theorem schemas_run {v : Value} (h : m.resource.get? "schemas" = some (.value v))
    (hapart : ∀ mapping ∈ mappings, Gives object mapping → ¬ TakesSchemas mapping) :
    (mappings.foldl (writeMapped object) m).resource.get? "schemas" = some (.value v) :=
  List.foldlRecOn (motive := fun m : Making => m.resource.get? "schemas" = some (.value v))
    mappings (writeMapped object) h
    fun _ hm mapping hmem => schemas_writeMapped hm (hapart mapping hmem)

/-! ## The resource -/

theorem gives_view {mapping : Mapping} (h : mapping ∈ c.mappings) :
    Gives (view c user) mapping ↔ Gives user mapping := by
  unfold Gives
  rw [given?_view (mem_readNames_of_mapping h)]

theorem holdsExtension_begun : HoldsExtension (begun c object) [] := by
  refine .inr ⟨get?_begun_of_not_mem ?_, rfl⟩
  exact (by decide : Urn.enterpriseUser ∉ ["schemas", "id", "userName", "displayName", "active",
    "name"] ++ contacts.map Prod.fst ++ passedThrough)

theorem get?_begun_schemas :
    (begun c object).resource.get? "schemas" = some (.value (schemasOf c object)) :=
  get?_begun (by simp [usualDrafts])

section

variable {baseUrl : String} {resource : Fields Value} (h : ofBackend baseUrl c user = .ok resource)

include h

/-- A resource is made of the values of what is written, and of the metadata. -/
theorem exists_of_ofBackend : ∃ (look : String → Option Value) (values : Fields Value)
    (metadata : Value),
    Draft.expandMembers look (c.mappings.foldl (writeMapped (view c user))
      (begun c (view c user))).resource = some values ∧
    resource = values.put "meta" metadata := by
  rw [← ofBackend_view] at h
  obtain ⟨values, hfinished, h⟩ := bind_eq_ok_iff.1 h
  obtain ⟨kept, -, h⟩ := bind_eq_ok_iff.1 h
  unfold Making.finished at hfinished
  split at hfinished
  · rename_i hvalues
    cases hfinished
    cases h
    exact ⟨_, _, _, hvalues, rfl⟩
  · cases hfinished

theorem mem_keys_ofBackend {name : String} (hname : name ≠ Urn.enterpriseUser) :
    name ∈ resource.keys ↔ name = "meta" ∨ name ∈ (begun c (view c user)).resource.keys ∨
      ∃ m ∈ c.mappings, m.isEnterprise = false ∧ Gives user m ∧ m.root = name := by
  obtain ⟨look, values, metadata, hvalues, rfl⟩ := exists_of_ofBackend h
  rw [Fields.mem_keys_put, Draft.keys_expandMembers hvalues, mem_keys_run hname]
  refine or_congr_right (or_congr_right (exists_congr fun m => and_congr_right fun hm => ?_))
  rw [gives_view hm]

/-- The object of the extension has the first names of its attributes that are given. It is missing
only where none is. -/
theorem extension_ofBackend :
    (∃ members, resource.get? Urn.enterpriseUser = some (.object members) ∧
      ∀ name, name ∈ Fields.keys members ↔
        ∃ m ∈ c.mappings, m.isEnterprise = true ∧ Gives user m ∧ m.root = name) ∨
    resource.get? Urn.enterpriseUser = none ∧
      ∀ m ∈ c.mappings, m.isEnterprise = true → ¬ Gives user m := by
  obtain ⟨look, values, metadata, hvalues, rfl⟩ := exists_of_ofBackend h
  obtain ⟨written, hwritten, hkeys⟩ := (holdsExtension_begun (c := c)).run c.mappings
  have hnames : ∀ name, name ∈ written.keys ↔
      ∃ m ∈ c.mappings, m.isEnterprise = true ∧ Gives user m ∧ m.root = name := by
    intro name
    rw [hkeys]
    simp only [Fields.keys, List.map_nil, List.not_mem_nil, false_or]
    exact exists_congr fun m => and_congr_right fun hm => by rw [gives_view hm]
  rw [Fields.get?_put_of_ne _ _ (by decide), Draft.get?_expandMembers hvalues]
  rcases hwritten with hobject | ⟨hnone, rfl⟩
  · left
    obtain ⟨v, hv, -⟩ := Draft.expand_of_get? hvalues hobject
    obtain ⟨members, hmembers, rfl⟩ := Option.map_eq_some_iff.1 hv
    refine ⟨members, by rw [hobject, Option.bind_some, hv], fun name => ?_⟩
    rw [Draft.keys_expandMembers hmembers, hnames]
  · right
    refine ⟨by rw [hnone, Option.bind_none], fun m hm he hgives => ?_⟩
    exact List.not_mem_nil ((hnames m.root).2 ⟨m, hm, he, hgives, rfl⟩)

theorem schemas_ofBackend (hapart : ∀ m ∈ c.mappings, Gives user m → ¬ TakesSchemas m) :
    resource.get? "schemas" = some (schemasOf c user) := by
  obtain ⟨look, values, metadata, hvalues, rfl⟩ := exists_of_ofBackend h
  have hstands : (c.mappings.foldl (writeMapped (view c user))
      (begun c (view c user))).resource.get? "schemas" = some (.value (schemasOf c (view c user))) :=
    schemas_run get?_begun_schemas fun m hm hgives => hapart m hm ((gives_view hm).1 hgives)
  rw [Fields.get?_put_of_ne _ _ (by decide), Draft.get?_expandMembers hvalues, hstands,
    schemasOf_view]
  rfl

/-- Where all attributes that take the place of the schemas give one value, it stands there. -/
theorem schemas_ofBackend_taken {v : Value} (hplain : v.members? = none)
    (hall : ∀ m ∈ c.mappings, ∀ w, Value.given? user m.backendAttribute = some w → w = v)
    (htaken : ∃ m ∈ c.mappings, Gives user m ∧ TakesSchemas m) :
    resource.get? "schemas" = some v := by
  obtain ⟨look, values, metadata, hvalues, rfl⟩ := exists_of_ofBackend h
  have hgiven : ∀ m ∈ c.mappings, Gives (view c user) m →
      Value.given? (view c user) m.backendAttribute = some v := by
    intro m hm hgives
    obtain ⟨w, hw⟩ := Option.isSome_iff_exists.1 hgives
    rw [hw, hall m hm w ((given?_view (mem_readNames_of_mapping hm)).symm.trans hw)]
  have hstands : (c.mappings.foldl (writeMapped (view c user))
      (begun c (view c user))).resource.get? "schemas" = some (.value v) := by
    refine (Fields.foldl_iff (fun m : Making => ∃ w, m.resource.get? "schemas" = some (.value w))
      (fun m : Making => m.resource.get? "schemas" = some (.value v))
      (fun mapping => Gives (view c user) mapping ∧ TakesSchemas mapping)
      (fun m hm mapping hmem => ?_) (fun m hm mapping hmem => ?_) ⟨_, get?_begun_schemas⟩).2
      (.inr ?_)
    · obtain ⟨w, hw⟩ := hm
      by_cases htakes : Gives (view c user) mapping ∧ TakesSchemas mapping
      · exact ⟨v, schemas_taken htakes.2 (hgiven mapping hmem htakes.1) hplain⟩
      · exact ⟨w, schemas_writeMapped hw fun hgives htake => htakes ⟨hgives, htake⟩⟩
    · obtain ⟨w, hw⟩ := hm
      by_cases htakes : Gives (view c user) mapping ∧ TakesSchemas mapping
      · exact iff_of_true (schemas_taken htakes.2 (hgiven mapping hmem htakes.1) hplain)
          (.inr htakes)
      · rw [schemas_writeMapped hw fun hgives htake => htakes ⟨hgives, htake⟩, hw]
        simp only [htakes, or_false]
    · obtain ⟨m, hm, hgives, htakes⟩ := htaken
      exact ⟨m, hm, (gives_view hm).2 hgives, htakes⟩
  rw [Fields.get?_put_of_ne _ _ (by decide), Draft.get?_expandMembers hvalues, hstands]
  rfl

end

/-! ## Users without objects -/

/-- No attribute keeps an object, and everything that is written has a value. -/
structure Flat (m : Making) : Prop where
  shared : m.shared = []
  expands : ∃ values, Draft.expandMembers (fun _ => none) m.resource = some values

section

variable (hflat : ∀ name v, user.get? name = some v → v.members? = none)

include hflat

theorem flat_begun : Flat (begun c (view c user)) := by
  have hshared : Making.sharedOf (view c user) = [] := by
    refine List.filterMap_eq_nil_iff.2 fun name hname => ?_
    obtain ⟨p, hp, rfl⟩ := List.mem_map.1 hname
    obtain ⟨n, hn, hp⟩ := List.mem_filterMap.1 hp
    obtain ⟨v, hv, rfl⟩ := Option.map_eq_some_iff.1 hp
    rw [get?_view hn, hv, Option.bind_some, hflat n v hv]
    rfl
  obtain ⟨values, hvalues⟩ := exists_begun (m := begun c (view c user)) rfl
  rw [Making.look?_of_nil hshared] at hvalues
  exact ⟨hshared, values, hvalues⟩

theorem Flat.step (h : Flat m) {mapping : Mapping} (hmapping : mapping ∈ c.mappings) :
    Flat (writeMapped (view c user) m mapping) := by
  rcases writeMapped_cases (view c user) m mapping with ⟨-, hwrite⟩ | ⟨-, v, hv, hwrite⟩
  · rwa [hwrite]
  · obtain ⟨values, hvalues⟩ := h.expands
    have hplain : v.members? = none := by
      rw [given?_view (mem_readNames_of_mapping hmapping)] at hv
      exact hflat _ v (get?_of_given? hv)
    have hexpand : (Draft.place mapping.backendAttribute v).expand (fun _ => none) = some v := by
      cases v with
      | object members => cases hplain
      | _ => rfl
    have horigin : (Making.follow m.shared mapping.place none [] m.resource).origin = none :=
      Making.follow_of_expandMembers (fun _ => rfl) hvalues []
    rw [hwrite, Making.write_of_follow m _ _ horigin]
    exact ⟨h.shared, Draft.exists_expandMembers_writeAt hexpand mapping.place hvalues⟩

/-- A user with no object among its values has a resource. -/
theorem exists_ofBackend_of_flat (baseUrl : String) :
    ∃ resource, ofBackend baseUrl c user = .ok resource := by
  have hm : Flat (c.mappings.foldl (writeMapped (view c user)) (begun c (view c user))) :=
    List.foldlRecOn (motive := fun m : Making => Flat m) c.mappings (writeMapped (view c user))
      (flat_begun hflat) fun _ hm _ hmapping => hm.step hflat hmapping
  obtain ⟨values, hvalues⟩ := hm.expands
  have hstamps : stamps (c.mappings.foldl (writeMapped (view c user)) (begun c (view c user))) =
      .ok [] := by
    unfold stamps
    rw [hm.shared]
    rfl
  have hfinished : (c.mappings.foldl (writeMapped (view c user))
      (begun c (view c user))).finished = .ok values := by
    unfold Making.finished
    rw [Making.look?_of_nil hm.shared, hvalues]
  rw [← ofBackend_view]
  exact ⟨_, bind_eq_ok_iff.2 ⟨values, hfinished, bind_eq_ok_iff.2 ⟨[], hstamps, rfl⟩⟩⟩

end

end User

end ScimBridge
