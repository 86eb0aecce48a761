import ScimBridge.Proofs.Resource.Shown
import ScimBridge.Proofs.Resource.Stored

/-!
# From the backend and back

A user resource that shows what the backend has stores entries of the backend user and nothing else
(`Shows.entries_eq`). So reading a user and writing its resource back changes nothing
(`toBackend_ofBackend`), but that the account status becomes one of two words where no mapping has
it.
-/

namespace ScimBridge

open Resource

namespace User

variable {c : MappingConfig} {user : Fields Value}

/-- The entries of attributes that are filled in, under their own names. -/
def filledEntries (object : Fields Value) (names : List String) : Fields Value :=
  names.filterMap fun name => (Value.filled? object name).map fun v => (name, v)

/-- The entry of the account status as a word. -/
def wordEntries (user : Fields Value) : Fields Value :=
  ((user.get? "accountStatus").map fun s => ("accountStatus", statusWord (isActive s))).toList

/-- The entries of a backend user that come back without a mapping. -/
def usualReturned (user : Fields Value) : Fields Value :=
  sameEntries user ["userName", "displayName"] ++ wordEntries user
    ++ filledEntries user (nameParts.map Prod.fst) ++ filledEntries user (contacts.map Prod.snd)
    ++ sameEntries user passedThrough

/-- The entries of a backend user that come back. -/
def returned (c : MappingConfig) (user : Fields Value) : Fields Value :=
  usualReturned user ++ sameEntries user (c.mappings.map (·.backendAttribute))

/-! ## What is stored of what is shown -/

theorem given?_bind_nonNull? (object : Fields Value) (name : String) :
    (Value.given? object name).bind Value.nonNull? = Value.given? object name := by
  rw [Value.given?_eq]
  cases object.get? name with
  | none => rfl
  | some v => cases v <;> rfl

theorem filled?_bind_nonNull? (object : Fields Value) (name : String) :
    (Value.filled? object name).bind Value.nonNull? = Value.filled? object name := by
  unfold Value.filled?
  cases object.get? name with
  | none => rfl
  | some v =>
    rw [Option.filter_some]
    split
    · rename_i hfilled
      exact Value.nonNull?_of_ne fun hnull => by simp [hnull, Value.filled] at hfilled
    · rfl

section

variable {baseUrl : String} {resource : Fields Value} (h : Shows baseUrl c user resource)

include h

theorem Shows.get? {name : String} {v? : Option Value}
    (hmem : ([name], v?) ∈ usualValues baseUrl c user) : resource.get? name = v? :=
  h.usual _ hmem

theorem Shows.given?_same {name : String}
    (hmem : ([name], Value.given? user name) ∈ usualValues baseUrl c user) :
    Value.given? resource name = Value.given? user name := by
  rw [Value.given?_eq, h.get? hmem, given?_bind_nonNull?]

theorem Shows.statusEntries_eq : statusEntries resource = wordEntries user := by
  have hactive : resource.get? "active" =
      (user.get? "accountStatus").map fun v => .bool (isActive v) :=
    h.get? (by simp [usualValues])
  unfold statusEntries wordEntries
  rw [Value.given?_eq, hactive]
  cases user.get? "accountStatus" <;> rfl

theorem Shows.nameEntries_eq :
    nameEntries resource = filledEntries user (nameParts.map Prod.fst) := by
  have hparts : ∀ p ∈ nameParts, at? ["name", p.2] resource = Value.filled? user p.1 :=
    fun p hp => h.usual (["name", p.2], Value.filled? user p.1) (by
      refine List.mem_append_left _ (List.mem_append_left _ (List.mem_append_right _ ?_))
      exact List.mem_map_of_mem hp)
  unfold nameEntries filledEntries
  rw [List.filterMap_map]
  split
  · rename_i parts hname
    refine List.filterMap_congr fun p hp => ?_
    have hpart : Fields.get? parts p.2 = Value.filled? user p.1 := by
      rw [← hparts p hp, at?, hname]
      rfl
    rw [Value.given?_eq, hpart, filled?_bind_nonNull?]
    rfl
  · rename_i hname
    have hnone : resource.get? "name" = none := by
      cases hw : resource.get? "name" with
      | none => rfl
      | some w =>
        obtain ⟨parts, rfl⟩ := h.name w hw
        exact (hname parts hw).elim
    refine (List.filterMap_eq_nil_iff.2 fun p hp => ?_).symm
    rw [Function.comp_apply, ← hparts p hp, at?, hnone]
    rfl

theorem Shows.contactEntries_eq :
    contactEntries resource = filledEntries user (contacts.map Prod.snd) := by
  unfold contactEntries filledEntries
  rw [List.filterMap_map]
  refine List.filterMap_congr fun p hp => ?_
  have hcontact : resource.get? p.1 = (Value.filled? user p.2).map contactValue :=
    h.get? (List.mem_append_left _ (List.mem_append_right _ (List.mem_map_of_mem hp)))
  have hprimary : ∀ v? : Option Value,
      (primaryValue ((v?.map contactValue).getD .null)).nonNull? = v?.bind Value.nonNull? := by
    rintro (_ | v) <;> rfl
  rw [hcontact, hprimary, filled?_bind_nonNull?]
  rfl

/-- What a resource gives for the attributes of some names is what the backend has. -/
theorem Shows.sameEntries_eq {names : List String} (hnames : ∀ name ∈ names,
    ([name], Value.given? user name) ∈ usualValues baseUrl c user) :
    sameEntries resource names = sameEntries user names :=
  List.filterMap_congr fun name hname => by rw [h.given?_same (hnames name hname)]

theorem Shows.mappedEntries_eq :
    mappedEntries resource c.mappings = sameEntries user (c.mappings.map (·.backendAttribute)) := by
  unfold mappedEntries sameEntries
  rw [List.filterMap_map]
  refine List.filterMap_congr fun m hm => ?_
  rw [mapped?, h.mapped m hm, given?_bind_nonNull?]
  rfl

/-- A resource stores the entries that come back, and nothing else. -/
theorem Shows.entries_eq (hc : c.Separate) : entries c resource = returned c user := by
  have hpassed : passedNames c = passedThrough := List.filter_eq_self.2 fun name hname => by
    rw [hc.byPath?_passed hname]
    rfl
  have hpassword : sameEntries resource ["password"] = [] := by
    have hnone : resource.get? "password" = none := h.get? (by simp [usualValues])
    simp [sameEntries, Value.given?, hnone]
  have hplain : sameEntries resource ["userName", "displayName", "password"] =
      sameEntries user ["userName", "displayName"] :=
    calc sameEntries resource ["userName", "displayName", "password"]
      _ = sameEntries resource ["userName", "displayName"] ++ sameEntries resource ["password"] :=
          List.filterMap_append (l := ["userName", "displayName"])
      _ = sameEntries user ["userName", "displayName"] := by
          rw [hpassword, List.append_nil, h.sameEntries_eq (by simp [usualValues])]
  rw [entries, coreEntries, hpassed, hplain, h.statusEntries_eq, h.nameEntries_eq,
    h.contactEntries_eq, h.mappedEntries_eq, h.sameEntries_eq fun name hname => ?_]
  · rfl
  · exact List.mem_append_right _ (List.mem_map_of_mem hname)

end

/-! ## What comes back -/

/-- Whether a mapping writes the account status of a backend user. -/
def mapsStatus (c : MappingConfig) (user : Fields Value) : Bool :=
  c.mappings.any fun m =>
    m.backendAttribute == "accountStatus" && (Value.given? user m.backendAttribute).isSome

/-- What an attribute of a backend user is after reading the user and writing its resource back: the
account status is one of two words unless a mapping writes it, and all others are as they were. -/
def settled? (c : MappingConfig) (user : Fields Value) (name : String) : Option Value :=
  if name = "accountStatus" ∧ mapsStatus c user = false then
    (user.get? name).map fun status => statusWord (isActive status)
  else user.get? name

/-- A backend user comes back unchanged: no attribute has another value than it had, but for the
account status, and none is lost that a resource shows. -/
structure ComesBack (c : MappingConfig) (user back : Fields Value) : Prop where
  unchanged : ∀ name value, back.get? name = some value → settled? c user name = some value
  mapped : ∀ m ∈ c.mappings, (Value.given? user m.backendAttribute).isSome →
    (back.get? m.backendAttribute).isSome
  given : ∀ name ∈ ["userName", "displayName"] ++ passedThrough,
    (Value.given? user name).isSome → (back.get? name).isSome
  filled : ∀ name ∈ nameParts.map Prod.fst ++ contacts.map Prod.snd,
    (Value.filled? user name).isSome → (back.get? name).isSome
  status : (user.get? "accountStatus").isSome → (back.get? "accountStatus").isSome

theorem mem_sameEntries {object : Fields Value} {names : List String} {name : String} {v : Value} :
    (name, v) ∈ sameEntries object names ↔ name ∈ names ∧ Value.given? object name = some v :=
  Fields.mem_filterMap_iff

theorem mem_filledEntries {object : Fields Value} {names : List String} {name : String}
    {v : Value} :
    (name, v) ∈ filledEntries object names ↔ name ∈ names ∧ Value.filled? object name = some v :=
  Fields.mem_filterMap_iff

/-- Without a mapping, the account status comes back as a word, and all others as they were. -/
theorem usualReturned_cases {name : String} {v : Value} (h : (name, v) ∈ usualReturned user) :
    (name = "accountStatus" ∧
      (user.get? name).map (fun status => statusWord (isActive status)) = some v) ∨
      name ≠ "accountStatus" ∧ user.get? name = some v := by
  have hgiven : ∀ name ∈ ["userName", "displayName"] ++ passedThrough,
      name ≠ "accountStatus" := by decide
  have hfilled : ∀ name ∈ nameParts.map Prod.fst ++ contacts.map Prod.snd,
      name ≠ "accountStatus" := by decide
  simp only [usualReturned, List.mem_append] at h
  rcases h with (((h | h) | h) | h) | h
  · obtain ⟨hname, hv⟩ := mem_sameEntries.1 h
    exact .inr ⟨hgiven name (List.mem_append_left _ hname), get?_of_given? hv⟩
  · obtain ⟨s, hs, heq⟩ := Option.map_eq_some_iff.1 (Option.mem_toList.1 h)
    obtain ⟨rfl, rfl⟩ := Prod.mk.inj heq
    exact .inl ⟨rfl, by rw [hs]; rfl⟩
  · obtain ⟨hname, hv⟩ := mem_filledEntries.1 h
    exact .inr ⟨hfilled name (List.mem_append_left _ hname), get?_of_filled? hv⟩
  · obtain ⟨hname, hv⟩ := mem_filledEntries.1 h
    exact .inr ⟨hfilled name (List.mem_append_right _ hname), get?_of_filled? hv⟩
  · obtain ⟨hname, hv⟩ := mem_sameEntries.1 h
    exact .inr ⟨hgiven name (List.mem_append_right _ hname), get?_of_given? hv⟩

theorem mapsStatus_iff : mapsStatus c user = true ↔
    "accountStatus" ∈ c.mappings.map (·.backendAttribute) ∧
      (Value.given? user "accountStatus").isSome := by
  simp only [mapsStatus, List.any_eq_true, Bool.and_eq_true, beq_iff_eq, List.mem_map]
  constructor
  · rintro ⟨m, hm, hname, hgiven⟩
    exact ⟨⟨m, hm, hname⟩, hname ▸ hgiven⟩
  · rintro ⟨⟨m, hm, hname⟩, hgiven⟩
    exact ⟨m, hm, hname, hname ▸ hgiven⟩

section

variable {back : Fields Value}
  (hback : ∀ name, back.get? name = Fields.get? (returned c user).reverse name)

include hback

theorem settled_of_returned {name : String} {v : Value} (h : back.get? name = some v) :
    settled? c user name = some v := by
  rw [hback, returned, List.reverse_append, Fields.get?_append] at h
  unfold settled?
  -- what a mapping gives is stored behind the rest, so it is found first
  cases hmapped : Fields.get?
      (sameEntries user (c.mappings.map (·.backendAttribute))).reverse name with
  | some w =>
    rw [hmapped, Option.some_or] at h
    cases h
    obtain ⟨hname, hv⟩ := mem_sameEntries.1 (List.mem_reverse.1 (Fields.mem_of_get? hmapped))
    have hmaps : ¬ (name = "accountStatus" ∧ mapsStatus c user = false) := by
      rintro ⟨rfl, hfalse⟩
      rw [mapsStatus_iff.2 ⟨hname, Option.isSome_of_eq_some hv⟩] at hfalse
      cases hfalse
    rw [if_neg hmaps]
    exact get?_of_given? hv
  | none =>
    rw [hmapped, Option.none_or] at h
    rcases usualReturned_cases (List.mem_reverse.1 (Fields.mem_of_get? h)) with
      ⟨rfl, hv⟩ | ⟨hne, hv⟩
    · have hmaps : mapsStatus c user = false := by
        refine Bool.eq_false_iff.2 fun htrue => ?_
        obtain ⟨hname, hgiven⟩ := mapsStatus_iff.1 htrue
        obtain ⟨w, hw⟩ := Option.isSome_iff_exists.1 hgiven
        have hentry : ("accountStatus", w) ∈
            (sameEntries user (c.mappings.map (·.backendAttribute))).reverse :=
          List.mem_reverse.2 (mem_sameEntries.2 ⟨hname, hw⟩)
        exact Fields.get?_eq_none_iff.1 hmapped (List.mem_map_of_mem hentry)
      rw [if_pos ⟨rfl, hmaps⟩]
      exact hv
    · rw [if_neg fun hstatus => hne hstatus.1]
      exact hv

theorem isSome_of_mem_returned {name : String} {v : Value} (h : (name, v) ∈ returned c user) :
    (back.get? name).isSome := by
  rw [hback, Fields.isSome_get?_iff]
  exact List.mem_map.2 ⟨_, List.mem_reverse.2 h, rfl⟩

theorem comesBack_of_returned : ComesBack c user back where
  unchanged _ _ h := settled_of_returned hback h
  mapped m hm hgiven := by
    obtain ⟨v, hv⟩ := Option.isSome_iff_exists.1 hgiven
    refine isSome_of_mem_returned hback (v := v) ?_
    exact List.mem_append_right _ (mem_sameEntries.2 ⟨List.mem_map_of_mem hm, hv⟩)
  given name hname hgiven := by
    obtain ⟨v, hv⟩ := Option.isSome_iff_exists.1 hgiven
    refine isSome_of_mem_returned hback (v := v) (List.mem_append_left _ ?_)
    simp only [usualReturned, List.mem_append, mem_sameEntries, hv, and_true]
    rcases List.mem_append.1 hname with h | h
    · exact .inl (.inl (.inl (.inl h)))
    · exact .inr h
  filled name hname hfilled := by
    obtain ⟨v, hv⟩ := Option.isSome_iff_exists.1 hfilled
    refine isSome_of_mem_returned hback (v := v) (List.mem_append_left _ ?_)
    simp only [usualReturned, List.mem_append, mem_filledEntries, hv, and_true]
    rcases List.mem_append.1 hname with h | h
    · exact .inl (.inl (.inr h))
    · exact .inl (.inr h)
  status hstatus := by
    obtain ⟨s, hs⟩ := Option.isSome_iff_exists.1 hstatus
    refine isSome_of_mem_returned hback (v := statusWord (isActive s)) (List.mem_append_left _ ?_)
    simp only [usualReturned, wordEntries, List.mem_append, hs]
    exact .inl (.inl (.inl (.inr (by simp))))

end

/-- Where attributes stand apart, reading a user and writing its resource back changes nothing. -/
theorem toBackend_ofBackend (h : c.Separate) (baseUrl : String) (user : Fields Value) :
    ∃ resource, ofBackend baseUrl c user = .ok resource ∧
      ComesBack c user (toBackend c resource) := by
  obtain ⟨resource, hresource, hshows⟩ := shows_ofBackend h baseUrl user
  refine ⟨resource, hresource, comesBack_of_returned fun name => ?_⟩
  rw [get?_toBackend, hshows.entries_eq h]

/-- A nested path, a path inside the name and one of the extension. -/
theorem toBackend_ofBackend_nested :
    let c : MappingConfig := ⟨[
      { path := "custom.badge", schema := Urn.coreUser, backendAttribute := "frIndexedString1" },
      { path := "name.honorific", schema := Urn.coreUser, backendAttribute := "frIndexedString2" },
      { path := "manager.value", schema := Urn.enterpriseUser,
        backendAttribute := "frIndexedString3" }], by decide⟩
    let user : Fields Value := [("_id", .string "u1"), ("accountStatus", .string "Active"),
      ("givenName", .string "Ada"), ("frIndexedString1", .int 7),
      ("frIndexedString2", .string "Dr."), ("frIndexedString3", .object [("id", .string "u2")])]
    c.Separate ∧ ∃ resource, ofBackend "/scim/v2" c user = .ok resource ∧
      ComesBack c user (toBackend c resource) := by
  intro c user
  have hc : c.Separate := ⟨by decide, by decide, by decide⟩
  exact ⟨hc, toBackend_ofBackend hc "/scim/v2" user⟩

end User

end ScimBridge
