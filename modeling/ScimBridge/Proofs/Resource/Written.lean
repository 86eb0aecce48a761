import ScimBridge.Proofs.Resource.Dependence

/-!
# User resources as plain writing

Where no path leads into the place of another attribute, nothing is ever written into an object that
the backend keeps: a user resource is what it begins with, and the given values of mapped attributes
are written into it one after the other (`Stands.run`). So there always is a resource
(`ofBackend_eq`).
-/

namespace ScimBridge

open Resource

namespace User

variable {c : MappingConfig} {user : Fields Value}

/-! ## Values of what is held -/

section

variable {m : Making} (hshared : m.shared = Making.sharedOf (view c user))

include hshared

theorem get?_shared {name : String} (hname : name ∈ readNames c) :
    m.shared.get? name = ((user.get? name).bind Value.members?).map Draft.ofMembers := by
  rw [hshared, Making.get?_sharedOf, get?_view hname]

theorem shared_of_object {name : String} (hname : name ∈ readNames c) {v : Value}
    (hv : user.get? name = some v) (members : Fields Value) (hobject : v = .object members) :
    m.shared.get? name = some (Draft.ofMembers members) := by
  rw [get?_shared hshared hname, hv, hobject]
  rfl

theorem expand_read {name : String} (hname : name ∈ readNames c) {v : Value}
    (hv : user.get? name = some v) : (Draft.place name v).expand m.look? = some v :=
  Making.expand_place (shared_of_object hshared hname hv)

theorem expand_given {name : String} (hname : name ∈ readNames c) :
    ((Value.given? (view c user) name).map (Draft.place name)).bind (Draft.expand m.look?) =
      Value.given? user name := by
  rw [given?_view hname]
  cases hv : Value.given? user name with
  | none => rfl
  | some v => exact expand_read hshared hname (get?_of_given? hv)

theorem expand_filled {name : String} (hname : name ∈ readNames c) :
    ((Value.filled? (view c user) name).map (Draft.place name)).bind (Draft.expand m.look?) =
      Value.filled? user name := by
  rw [filled?_view hname]
  cases hv : Value.filled? user name with
  | none => rfl
  | some v => exact expand_read hshared hname (get?_of_filled? hv)

omit hshared in
/-- A contact of one value. -/
def contactValue (v : Value) : Value :=
  .array [.object [("value", v), ("primary", .bool true), ("type", .string "work")]]

omit hshared in
theorem expand_contactOf {look : String → Option Value} {d : Draft} {v : Value}
    (h : d.expand look = some v) : (contactOf d).expand look = some (contactValue v) := by
  simp [contactOf, contactValue, Draft.expand, Draft.expandItems, Draft.expandMembers, h]

theorem expand_contact {name : String} (hname : name ∈ readNames c) :
    ((Value.filled? (view c user) name).map fun v => contactOf (Draft.place name v)).bind
      (Draft.expand m.look?) = (Value.filled? user name).map contactValue := by
  rw [filled?_view hname]
  cases hv : Value.filled? user name with
  | none => rfl
  | some v => exact expand_contactOf (expand_read hshared hname (get?_of_filled? hv))

theorem expand_of_held {d : Draft} (h : Held c (view c user) d) :
    ∃ v, d.expand m.look? = some v := by
  cases h with
  | value v => exact ⟨v, rfl⟩
  | placed hread hv =>
    rw [get?_view hread] at hv
    exact ⟨_, expand_read hshared hread hv⟩
  | contact hread hv =>
    rw [get?_view hread] at hv
    exact ⟨_, expand_contactOf (expand_read hshared hread hv)⟩

/-- What a user resource begins with has values. -/
theorem exists_begun :
    ∃ values, Draft.expandMembers m.look? (begun c (view c user)).resource = some values := by
  refine Draft.exists_expandMembers fun ⟨name, d⟩ hmem => ?_
  rcases usual_or_name hmem with ⟨-, hheld⟩ | ⟨-, rfl⟩
  · exact expand_of_held hshared hheld
  · obtain ⟨values, hvalues⟩ : ∃ values,
        Draft.expandMembers m.look? (nameDrafts (view c user)) = some values :=
      Draft.exists_expandMembers fun ⟨part, d⟩ hpart =>
        expand_of_held hshared (held_of_mem_nameDrafts (c := c) hpart).2
    exact ⟨.object values, by simp [Draft.expand, hvalues]⟩

end

/-! ## Writing mapped attributes -/

/-- Write the given value of a mapped attribute into a resource. -/
def writeGiven (user : Fields Value) (resource : Fields Value) (m : Mapping) : Fields Value :=
  match Value.given? user m.backendAttribute with
  | none => resource
  | some v => writeAt v m.place resource

/-- A resource in the making stands for some values: no object of the backend has been written into,
and no mapped attribute leads into one. -/
structure Stands (c : MappingConfig) (user : Fields Value) (m : Making)
    (values : Fields Value) : Prop where
  shared : m.shared = Making.sharedOf (view c user)
  expands : Draft.expandMembers m.look? m.resource = some values
  opened : ∀ mapping ∈ c.mappings, Open mapping.place m.resource

theorem stands_begun (h : c.Unentered) (user : Fields Value) :
    ∃ values, Stands c user (begun c (view c user)) values := by
  obtain ⟨values, hvalues⟩ := exists_begun (m := begun c (view c user)) rfl
  exact ⟨values, rfl, hvalues, fun mapping hmapping =>
    open_begun fun p hp hprefix => h.usual p hp mapping hmapping hprefix⟩

/-- Writing a mapped attribute writes its value. -/
theorem Stands.step (h : c.Unentered) {m : Making} {values : Fields Value}
    (hm : Stands c user m values) {mapping : Mapping} (hmapping : mapping ∈ c.mappings) :
    Stands c user (writeMapped (view c user) m mapping) (writeGiven user values mapping) := by
  have hread := mem_readNames_of_mapping hmapping
  have hplace : (if mapping.isEnterprise then
      Urn.enterpriseUser :: Resource.segments mapping.path
      else Resource.segments mapping.path) = mapping.place := rfl
  unfold writeMapped writeGiven
  rw [given?_view hread]
  cases hv : Value.given? user mapping.backendAttribute with
  | none => exact hm
  | some v =>
    -- the place is open, so the write does not lead into an object that is seen elsewhere
    have hopen := hm.opened mapping hmapping
    have hexpand := expand_read hm.shared hread (get?_of_given? hv)
    simp only [hplace, Making.write_of_open hopen]
    exact
      { shared := hm.shared
        expands := Draft.expandMembers_writeAt hexpand hopen hm.expands
        opened := fun other hother => open_writeAt _ (hm.opened other hother)
          (h.mapped mapping hmapping other hother) }

theorem Stands.run (h : c.Unentered) {mappings : List Mapping} (hsub : mappings ⊆ c.mappings)
    {m : Making} {values : Fields Value} (hm : Stands c user m values) :
    Stands c user (mappings.foldl (writeMapped (view c user)) m)
      (mappings.foldl (writeGiven user) values) := by
  induction mappings generalizing m values with
  | nil => exact hm
  | cons mapping rest ih =>
    exact ih (fun _ hx => hsub (List.mem_cons_of_mem _ hx))
      (hm.step h (hsub List.mem_cons_self))

/-! ## The resource -/

/-- The metadata members of a backend user that are copied. -/
def stampsOf (user : Fields Value) : Fields Value :=
  (((user.get? "_meta").bind Value.members?).getD []).filter fun p => stampNames.contains p.1

/-- The metadata of the resource of a backend user. -/
def metadataOf (baseUrl : String) (user : Fields Value) : Value :=
  Resource.metadata "User"
    (dropEnd '/' baseUrl ++ "/Users/" ++ (Resource.identifier user).shown)
    ((Value.given? user "_rev").map Value.shown) (stampsOf user)

section

variable {m : Making} (hshared : m.shared = Making.sharedOf (view c user))

include hshared

theorem text_identifier : m.text (identifierOf (view c user)) = (Resource.identifier user).shown := by
  have hread : "_id" ∈ readNames c := mem_readNames_of_usual (by decide)
  rw [identifierOf_view, identifierOf, Resource.identifier]
  cases hid : user.get? "_id" with
  | none => rfl
  | some v => exact Making.text_place (shared_of_object hshared hread hid)

theorem expand_identifier :
    (identifierOf (view c user)).expand m.look? = some (Resource.identifier user) := by
  have hread : "_id" ∈ readNames c := mem_readNames_of_usual (by decide)
  rw [identifierOf_view, identifierOf, Resource.identifier]
  cases hid : user.get? "_id" with
  | none => rfl
  | some v => exact expand_read hshared hread hid

theorem text_revision : (Value.given? (view c user) "_rev").map
      (fun v => m.text (.place "_rev" v)) = (Value.given? user "_rev").map Value.shown := by
  have hread : "_rev" ∈ readNames c := mem_readNames_of_usual (by decide)
  rw [given?_view hread]
  cases hv : Value.given? user "_rev" with
  | none => rfl
  | some v =>
    exact congrArg some (Making.text_place (shared_of_object hshared hread (get?_of_given? hv)))

theorem stamps_eq : stamps m = .ok (stampsOf user) := by
  have hread : "_meta" ∈ readNames c := mem_readNames_of_usual (by decide)
  have hkept : (m.shared.get? "_meta").getD [] =
      Draft.ofMembers (((user.get? "_meta").bind Value.members?).getD []) := by
    rw [get?_shared hshared hread]
    cases (user.get? "_meta").bind Value.members? <;> rfl
  unfold stamps stampsOf
  rw [hkept]
  exact Making.mapM_ofMembers _ _

end

/-- There is a resource: what it begins with, the given values of mapped attributes, and the
metadata. -/
theorem ofBackend_eq (h : c.Unentered) (baseUrl : String) (user : Fields Value) :
    ∃ values, Stands c user (begun c (view c user)) values ∧
      ofBackend baseUrl c user =
        .ok ((c.mappings.foldl (writeGiven user) values).put "meta" (metadataOf baseUrl user)) := by
  obtain ⟨values, hbegun⟩ := stands_begun h user
  have hm := hbegun.run h (List.Subset.refl _)
  refine ⟨values, hbegun, ?_⟩
  rw [← ofBackend_view]
  unfold ofBackend metadataOf
  simp only [Making.finished, hm.expands, stamps_eq hm.shared, text_identifier hm.shared,
    text_revision hm.shared]
  rfl

end User

end ScimBridge
