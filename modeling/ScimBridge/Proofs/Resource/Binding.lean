import ScimBridge.Proofs.Outcomes
import ScimBridge.Proofs.Resource.Shown
import ScimBridge.Proofs.Resource.Stored

/-!
# What a core attribute is bound to

A core attribute that is passed through is bound to one backend attribute: that of its mapping, or
the one of its own name. Where no other attribute stands at or below it, a resource writes the
attribute there and nowhere else (`writesTo_boundTo`), unless a mapping of another schema answers
for its name: then it is not written at all (`toBackend_of_claimed`). It is shown iff the backend has
one of the two (`get?_ofBackend`).
-/

namespace ScimBridge

open Resource

/-! ## Configurations -/

namespace MappingConfig

variable {c : MappingConfig} {name : String}

/-- The mapping of the core schema for an attribute. -/
def coreMapping? (c : MappingConfig) (name : String) : Option Mapping :=
  c.mappings.find? fun m => m.isCoreUser && m.path == name

/-- The backend attribute that a core attribute is bound to. -/
def boundTo (c : MappingConfig) (name : String) : String :=
  ((c.coreMapping? name).map (·.backendAttribute)).getD name

/-- No two mappings of a schema have the same path. -/
def UniquePaths (c : MappingConfig) : Prop :=
  c.mappings.Pairwise fun m m' => m.schema = m'.schema → m.path ≠ m'.path

/-- No attribute but the one of the core schema stands at or below a name. -/
def StandsAlone (c : MappingConfig) (name : String) : Prop :=
  ∀ m ∈ c.mappings, [name] <+: m.place → m.isCoreUser = true ∧ m.path = name

/-- A mapping of another schema answers for a name, and none of the core schema. -/
def Claimed (c : MappingConfig) (name : String) : Prop :=
  c.coreMapping? name = none ∧ (c.byPath? name).isSome

theorem coreMapping?_eq_some {m : Mapping} (h : c.coreMapping? name = some m) :
    m ∈ c.mappings ∧ m.isCoreUser = true ∧ m.path = name := by
  have hm := List.find?_some h
  rw [Bool.and_eq_true, beq_iff_eq] at hm
  exact ⟨List.mem_of_find?_eq_some h, hm⟩

theorem coreMapping?_eq_none (h : c.coreMapping? name = none) {m : Mapping}
    (hm : m ∈ c.mappings) (hcore : m.isCoreUser = true) : m.path ≠ name := by
  have hnot := List.find?_eq_none.1 h m hm
  simpa [hcore] using hnot

/-- The mapping of the core schema for an attribute is the only one. -/
theorem UniquePaths.coreMapping?_eq (h : c.UniquePaths) {m : Mapping} (hm : m ∈ c.mappings)
    (hcore : m.isCoreUser = true) (hpath : m.path = name) : c.coreMapping? name = some m := by
  cases hfind : c.coreMapping? name with
  | none => exact absurd hpath (coreMapping?_eq_none hfind hm hcore)
  | some m' =>
    obtain ⟨hm', hcore', hpath'⟩ := coreMapping?_eq_some hfind
    have : Std.Symm fun m m' : Mapping => m.schema = m'.schema → m.path ≠ m'.path :=
      ⟨fun _ _ hne hschema heq => hne hschema.symm heq.symm⟩
    by_contra hne
    refine h.forall hm' hm (fun heq => hne (heq ▸ rfl)) ?_ (hpath'.trans hpath.symm)
    rw [beq_iff_eq.1 hcore', beq_iff_eq.1 hcore]

theorem isEnterprise_of_isCoreUser {m : Mapping} (h : m.isCoreUser = true) :
    m.isEnterprise = false := by
  rw [Mapping.isEnterprise, beq_iff_eq.1 h]
  decide

theorem boundTo_of_some {m : Mapping} (h : c.coreMapping? name = some m) :
    c.boundTo name = m.backendAttribute := by
  rw [boundTo, h]
  rfl

theorem boundTo_of_none (h : c.coreMapping? name = none) : c.boundTo name = name := by
  rw [boundTo, h]
  rfl

end MappingConfig

namespace User

variable {c : MappingConfig} {name : String}

/-! ## The place of an attribute -/

/-- A place that a name does not begin does not depend on the name. -/
theorem at?_erase {p : List String} (h : ¬ [name] <+: p) (resource : Fields Value) :
    at? p (Fields.erase resource name) = at? p resource := by
  cases p with
  | nil => rfl
  | cons first rest =>
    have hne : first ≠ name := by
      rintro rfl
      exact h (List.cons_prefix_cons.2 ⟨rfl, List.nil_prefix⟩)
    exact at?_congr ((Fields.get?_erase resource name first).trans (if_neg hne)) rest

/-- The names of core attributes that are not passed through. -/
def coreNames : List String :=
  ["userName", "displayName", "password", "active", "name"] ++ contacts.map Prod.fst

theorem coreEntries_congr {resource other : Fields Value}
    (h : ∀ name ∈ coreNames, other.get? name = resource.get? name) :
    coreEntries other = coreEntries resource := by
  have hsame : sameEntries other ["userName", "displayName", "password"] =
      sameEntries resource ["userName", "displayName", "password"] :=
    List.filterMap_congr fun n hn => by
      rw [Value.given?_eq, Value.given?_eq, h n ((by decide : ∀ n ∈
        ["userName", "displayName", "password"], n ∈ coreNames) n hn)]
  have hcontacts : contactEntries other = contactEntries resource :=
    List.filterMap_congr fun p hp => by
      rw [h p.1 ((by decide : ∀ p ∈ contacts, p.1 ∈ coreNames) p hp)]
  rw [coreEntries, coreEntries, hsame, hcontacts, statusEntries, statusEntries, Value.given?_eq,
    Value.given?_eq, h "active" (by decide), nameEntries, nameEntries, h "name" (by decide)]

theorem coreEntries_erase (hname : name ∈ passedThrough) (resource : Fields Value) :
    coreEntries (Fields.erase resource name) = coreEntries resource := by
  refine coreEntries_congr fun n hn => ?_
  have hne : n ≠ name := by
    rintro rfl
    exact (by decide : ∀ n ∈ coreNames, n ∉ passedThrough) n hn hname
  rw [Fields.get?_erase, if_neg hne]

/-- The mapped attribute at the place of a name is that of the core schema. -/
theorem place_eq_of_core {m : Mapping} (hname : name ∈ passedThrough)
    (hcore : m.isCoreUser = true) (hpath : m.path = name) : m.place = [name] := by
  rw [Mapping.place_of_core (MappingConfig.isEnterprise_of_isCoreUser hcore), hpath]
  exact (by decide : ∀ name ∈ passedThrough, Resource.segments name = [name]) name hname

/-! ## Passing through -/

/-- An attribute that has a mapping of the core schema is not passed through. -/
theorem ne_of_mem_passedNames {n : String} (hn : n ∈ passedNames c) {m : Mapping}
    (hfind : c.coreMapping? name = some m) : n ≠ name := by
  rintro rfl
  obtain ⟨hm, -, hpath⟩ := MappingConfig.coreMapping?_eq_some hfind
  have hby := (List.mem_filter.1 hn).2
  rw [Option.isNone_iff_eq_none, MappingConfig.byPath?, List.find?_eq_none] at hby
  exact absurd (by simp [hpath]) (hby m hm)

theorem mem_passedNames (hname : name ∈ passedThrough) (hclaimed : ¬ c.Claimed name)
    (hnone : c.coreMapping? name = none) : name ∈ passedNames c := by
  refine List.mem_filter.2 ⟨hname, ?_⟩
  rw [← Option.not_isSome]
  simpa using fun hsome => hclaimed ⟨hnone, hsome⟩

/-! ## Writing -/

section

variable (hname : name ∈ passedThrough) (hunique : c.UniquePaths) (halone : c.StandsAlone name)

include hunique halone in
/-- What stands at or below the name is kept in the attribute that the name is bound to. -/
theorem attribute_of_begins {m : Mapping} (hm : m ∈ c.mappings) (hbegins : [name] <+: m.place) :
    c.coreMapping? name = some m ∧ m.backendAttribute = c.boundTo name := by
  obtain ⟨hcore, hpath⟩ := halone m hm hbegins
  have hfind := hunique.coreMapping?_eq hm hcore hpath
  exact ⟨hfind, (MappingConfig.boundTo_of_some hfind).symm⟩

include hname hunique halone

/-- The entries of a resource with and without the attribute differ under the bound name only. -/
theorem erase_entries (resource : Fields Value) :
    (entries c resource).erase (c.boundTo name) =
      (entries c (Fields.erase resource name)).erase (c.boundTo name) := by
  have hsame : (sameEntries resource (passedNames c)).erase (c.boundTo name) =
      (sameEntries (Fields.erase resource name) (passedNames c)).erase (c.boundTo name) := by
    refine Fields.erase_filterMap_congr fun n hn => ?_
    by_cases hne : n = name
    · -- the name is passed through, so no mapping of the core schema answers for it
      subst hne
      have hnone : c.coreMapping? n = none := by
        cases hfind : c.coreMapping? n with
        | none => rfl
        | some m => exact absurd rfl (ne_of_mem_passedNames hn hfind)
      rw [MappingConfig.boundTo_of_none hnone]
      exact .inr ⟨fun _ => Fields.fst_of_map_eq_some, fun _ => Fields.fst_of_map_eq_some⟩
    · left
      rw [Value.given?_eq, Value.given?_eq, Fields.get?_erase, if_neg hne]
  have hmapped : (mappedEntries resource c.mappings).erase (c.boundTo name) =
      (mappedEntries (Fields.erase resource name) c.mappings).erase (c.boundTo name) := by
    refine Fields.erase_filterMap_congr fun m hm => ?_
    by_cases hbegins : [name] <+: m.place
    · rw [← (attribute_of_begins hunique halone hm hbegins).2]
      exact .inr ⟨fun _ => Fields.fst_of_map_eq_some, fun _ => Fields.fst_of_map_eq_some⟩
    · left
      rw [mapped?, mapped?, at?_erase hbegins]
  rw [entries, entries, Fields.erase_append, Fields.erase_append, Fields.erase_append,
    Fields.erase_append, hsame, hmapped, coreEntries_erase hname]

end

/-- What is given at the name is what a mapping at its place gives. -/
theorem mapped?_of_place {m : Mapping} (hplace : m.place = [name]) (resource : Fields Value) :
    mapped? resource m = Value.given? resource name := by
  rw [mapped?, hplace, Value.given?_eq]
  rfl

theorem exists_of_mem_mappedEntries {mappings : List Mapping} {resource : Fields Value}
    {field : String} {v : Value} (h : (field, v) ∈ mappedEntries resource mappings) :
    ∃ m ∈ mappings, m.backendAttribute = field ∧ mapped? resource m = some v := by
  obtain ⟨m, hm, heq⟩ := List.mem_filterMap.1 h
  obtain ⟨w, hw, hentry⟩ := Option.map_eq_some_iff.1 heq
  obtain ⟨rfl, rfl⟩ := Prod.mk.inj hentry
  exact ⟨m, hm, rfl, hw⟩

/-- Unless another schema claims the name, what is given for it is an entry under the name that it
is bound to. -/
theorem mem_entries_of_given (hname : name ∈ passedThrough) (hclaimed : ¬ c.Claimed name)
    {resource : Fields Value} {v : Value} (hv : Value.given? resource name = some v) :
    c.boundTo name = name ∧ (name, v) ∈ sameEntries resource (passedNames c) ∨
      (c.boundTo name, v) ∈ mappedEntries resource c.mappings := by
  cases hfind : c.coreMapping? name with
  | some m =>
    obtain ⟨hm, hcore, hpath⟩ := MappingConfig.coreMapping?_eq_some hfind
    refine .inr (List.mem_filterMap.2 ⟨m, hm, ?_⟩)
    rw [mapped?_of_place (place_eq_of_core hname hcore hpath), hv,
      MappingConfig.boundTo_of_some hfind]
    rfl
  | none =>
    exact .inl ⟨MappingConfig.boundTo_of_none hfind,
      Fields.mem_filterMap_iff.2 ⟨mem_passedNames hname hclaimed hfind, hv⟩⟩

/-- A resource writes an attribute to one backend attribute and to no other one. There it stands,
unless the resource gives another attribute that is kept in the same place. -/
structure WritesTo (c : MappingConfig) (name target : String) : Prop where
  other : ∀ resource field, field ≠ target → (toBackend c resource).get? field =
    (toBackend c (Fields.erase resource name)).get? field
  value : ∀ resource v, Value.given? resource name = some v →
    ∃ w, (toBackend c resource).get? target = some w ∧ (w = v ∨ ∃ m ∈ c.mappings,
      m.place ≠ [name] ∧ m.backendAttribute = target ∧ mapped? resource m = some w)

/-- Unless another schema claims the name, an attribute is written where it is bound to. -/
theorem writesTo_boundTo (hname : name ∈ passedThrough) (hunique : c.UniquePaths)
    (halone : c.StandsAlone name) (hclaimed : ¬ c.Claimed name) :
    WritesTo c name (c.boundTo name) where
  other resource field hne := by
    rw [get?_toBackend, get?_toBackend]
    exact Fields.get?_reverse_congr (erase_entries hname hunique halone resource) hne
  value resource v hv := by
    -- mapped attributes are stored behind all others, so theirs is the entry that is found
    rw [get?_toBackend, entries, List.reverse_append, List.reverse_append, Fields.get?_append,
      Fields.get?_append]
    cases hmapped : Fields.get? (mappedEntries resource c.mappings).reverse (c.boundTo name) with
    | some w =>
      refine ⟨w, Option.some_or, ?_⟩
      obtain ⟨m, hm, hattribute, hw⟩ :=
        exists_of_mem_mappedEntries (List.mem_reverse.1 (Fields.mem_of_get? hmapped))
      by_cases hplace : m.place = [name]
      · rw [mapped?_of_place hplace, hv] at hw
        exact .inl (Option.some.inj hw).symm
      · exact .inr ⟨m, hm, hplace, hattribute, hw⟩
    | none =>
      have hnot : (c.boundTo name, v) ∉ mappedEntries resource c.mappings := fun hmem =>
        Fields.get?_eq_none_iff.1 hmapped (List.mem_map_of_mem (List.mem_reverse.2 hmem))
      obtain ⟨hbound, hmem⟩ := (mem_entries_of_given hname hclaimed hv).resolve_right hnot
      rw [hbound]
      obtain ⟨w, hw⟩ := Option.isSome_iff_exists.1
        (Fields.isSome_get?_iff.2 (List.mem_map_of_mem (List.mem_reverse.2 hmem)))
      have hgiven := (Fields.mem_filterMap_iff.1 (List.mem_reverse.1 (Fields.mem_of_get? hw))).2
      rw [hv] at hgiven
      exact ⟨w, by rw [hw]; rfl, .inl (Option.some.inj hgiven).symm⟩

/-- Where another schema claims the name, the attribute is not written at all. -/
theorem toBackend_of_claimed (hname : name ∈ passedThrough) (hunique : c.UniquePaths)
    (halone : c.StandsAlone name) (hclaimed : c.Claimed name) (resource : Fields Value) :
    toBackend c resource = toBackend c (Fields.erase resource name) := by
  have hsame : sameEntries (Fields.erase resource name) (passedNames c) =
      sameEntries resource (passedNames c) := List.filterMap_congr fun n hn => by
    have hne : n ≠ name := by
      rintro rfl
      have hby := (List.mem_filter.1 hn).2
      rw [Option.isNone_iff_eq_none] at hby
      simpa [hby] using hclaimed.2
    rw [Value.given?_eq, Value.given?_eq, Fields.get?_erase, if_neg hne]
  have hmapped : mappedEntries (Fields.erase resource name) c.mappings =
      mappedEntries resource c.mappings := List.filterMap_congr fun m hm => by
    have hbegins : ¬ [name] <+: m.place := fun h => by
      simpa [hclaimed.1] using (attribute_of_begins hunique halone hm h).1
    rw [mapped?, mapped?, at?_erase hbegins]
  rw [toBackend_eq, toBackend_eq, entries, entries, hsame, hmapped, coreEntries_erase hname]

/-! ## A partial resource with one attribute -/

theorem given?_single {v : Value} (hv : v ≠ .null) : Value.given? [(name, v)] name = some v :=
  Value.given?_eq_some_iff.2 ⟨(Fields.get?_cons ..).trans (if_pos (beq_self_eq_true name)), hv⟩

theorem get?_single_of_ne {n : String} (h : n ≠ name) (v : Value) :
    Fields.get? [(name, v)] n = none :=
  (Fields.get?_cons ..).trans (if_neg (by simpa using h))

theorem at?_single {p : List String} (h : ¬ [name] <+: p) (v : Value) :
    at? p ([(name, v)] : Fields Value) = none := by
  have herase : Fields.erase ([(name, v)] : Fields Value) name = [] := by simp [Fields.erase]
  rw [← at?_erase h, herase, at?_nil]

theorem mapped?_single {m : Mapping} (h : ¬ [name] <+: m.place) (v : Value) :
    mapped? [(name, v)] m = none := by
  rw [mapped?, at?_single h, Option.bind_none]

/-- The one attribute of a partial resource is passed through if it is among those that are. -/
theorem sameEntries_single {v : Value} (hv : v ≠ .null) (hmem : name ∈ passedNames c) :
    sameEntries [(name, v)] (passedNames c) = [(name, v)] := by
  have hnodup : (passedNames c).Nodup := (by decide : passedThrough.Nodup).filter _
  have hother : ∀ n, n ≠ name → Value.given? [(name, v)] n = none := fun n hn => by
    rw [Value.given?_eq, get?_single_of_ne hn]
    rfl
  refine Fields.filterMap_eq_singleton (hnodup.imp ?_) hmem (by rw [given?_single hv]; rfl)
  intro n n' hne
  by_cases hn : n = name
  · exact .inr (by rw [hother n' fun heq => hne (hn.trans heq.symm)]; rfl)
  · exact .inl (by rw [hother n hn]; rfl)

section

variable (hname : name ∈ passedThrough) (hunique : c.UniquePaths) (halone : c.StandsAlone name)

include hunique halone

theorem mappedEntries_single_eq_nil (hnone : c.coreMapping? name = none) (v : Value) :
    mappedEntries [(name, v)] c.mappings = [] :=
  List.filterMap_eq_nil_iff.2 fun m hm => by
    have hbegins : ¬ [name] <+: m.place := fun h => by
      simpa [hnone] using (attribute_of_begins hunique halone hm h).1
    rw [mapped?_single hbegins]
    rfl

include hname

theorem mappedEntries_single {m : Mapping} (hfind : c.coreMapping? name = some m) {v : Value}
    (hv : v ≠ .null) : mappedEntries [(name, v)] c.mappings = [(m.backendAttribute, v)] := by
  obtain ⟨hm, hcore, hpath⟩ := MappingConfig.coreMapping?_eq_some hfind
  have hself : mapped? [(name, v)] m = some v := by
    rw [mapped?_of_place (place_eq_of_core hname hcore hpath), given?_single hv]
  refine mappedEntries_eq_singleton (hunique.imp_of_mem fun {m₁ m₂} hm₁ hm₂ hne => ?_) hm hself
  by_cases h₁ : [name] <+: m₁.place
  · refine .inr (mapped?_single (fun h₂ => ?_) v)
    have heq := (attribute_of_begins hunique halone hm₁ h₁).1.symm.trans
      (attribute_of_begins hunique halone hm₂ h₂).1
    cases heq
    exact hne rfl rfl
  · exact .inl (mapped?_single h₁ v)

/-- A partial resource that gives nothing but the attribute writes it where it is bound to. -/
theorem toBackend_single (hclaimed : ¬ c.Claimed name) {v : Value} (hv : v ≠ .null) :
    toBackend c [(name, v)] = [(c.boundTo name, v)] := by
  have hcore : coreEntries [(name, v)] = [] := coreEntries_eq_nil fun p hp => at?_single
    ((by decide : ∀ name ∈ passedThrough, ∀ p ∈ corePlaces, ¬ [name] <+: p) name hname p hp) v
  rw [toBackend_eq, entries, hcore]
  cases hfind : c.coreMapping? name with
  | some m =>
    have hsame : sameEntries [(name, v)] (passedNames c) = [] :=
      sameEntries_eq_nil fun n hn => get?_single_of_ne (ne_of_mem_passedNames hn hfind) v
    rw [hsame, mappedEntries_single hname hunique halone hfind hv,
      MappingConfig.boundTo_of_some hfind]
    rfl
  | none =>
    rw [sameEntries_single hv (mem_passedNames hname hclaimed hfind),
      mappedEntries_single_eq_nil hunique halone hfind, MappingConfig.boundTo_of_none hfind]
    rfl

end

/-! ## Reading -/

/-- What the backend has for an attribute, as the node that stands for it. -/
def nodeOf? (object : Fields Value) (origin : String) : Option Draft :=
  (Value.given? object origin).map (Draft.place origin)

/-- A mapped attribute that stands at the name replaces what is there, and no other one is seen
there. -/
theorem get?_writeMapped {mapping : Mapping} (h : [name] <+: mapping.place → mapping.place = [name])
    (object : Fields Value) (m : Making) :
    (writeMapped object m mapping).resource.get? name =
      if mapping.place = [name] then
        (nodeOf? object mapping.backendAttribute).or (m.resource.get? name)
      else m.resource.get? name := by
  have hplace : (if mapping.isEnterprise then
      Urn.enterpriseUser :: Resource.segments mapping.path
      else Resource.segments mapping.path) = mapping.place := rfl
  unfold writeMapped nodeOf?
  cases hv : Value.given? object mapping.backendAttribute with
  | none => simp
  | some v =>
    simp only [hplace, Option.map_some, Option.some_or]
    split
    · rename_i hname
      rw [hname, Making.get?_write_self]
    · rename_i hne
      obtain ⟨first, rest, hcons⟩ := List.exists_cons_of_ne_nil mapping.place_ne_nil
      have hfirst : name ≠ first := by
        rintro rfl
        exact hne (h (hcons ▸ List.cons_prefix_cons.2 ⟨rfl, List.nil_prefix⟩))
      rw [hcons, Making.get?_write_of_ne hfirst]

/-- After all mapped attributes have been written, the name holds the attribute that it is bound to,
or what was there before. -/
theorem get?_foldl_writeMapped {target : String} {mappings : List Mapping}
    (h : ∀ m ∈ mappings, [name] <+: m.place → m.place = [name] ∧ m.backendAttribute = target)
    (object : Fields Value) (m : Making) :
    (mappings.foldl (writeMapped object) m).resource.get? name =
      if ∃ mapping ∈ mappings, mapping.place = [name] then
        (nodeOf? object target).or (m.resource.get? name)
      else m.resource.get? name := by
  -- the resource in the making is kept general: the rest is written into what the first one left
  induction mappings generalizing m with
  | nil => simp
  | cons first rest ih =>
    obtain ⟨hfirst, hrest⟩ := List.forall_mem_cons.1 h
    rw [List.foldl_cons, ih hrest, get?_writeMapped fun hbegins => (hfirst hbegins).1]
    by_cases hplace : first.place = [name]
    · have hexists : ∃ mapping ∈ first :: rest, mapping.place = [name] :=
        ⟨first, List.mem_cons_self, hplace⟩
      rw [if_pos hplace, if_pos hexists, (hfirst (hplace ▸ List.prefix_rfl)).2]
      split
      · cases nodeOf? object target <;> rfl
      · rfl
    · simp [hplace]

/-- What a resource shows of an attribute: what the attribute that it is bound to holds, and else
what the attribute of its own name does. -/
def shown? (c : MappingConfig) (user : Fields Value) (name : String) : Option Value :=
  (Value.given? user (c.boundTo name)).or (Value.given? user name)

section

variable {user resource : Fields Value} {baseUrl : String}

/-- The resource in the making that becomes the user resource. -/
def making (c : MappingConfig) (user : Fields Value) : Making :=
  c.mappings.foldl (writeMapped (view c user)) (begun c (view c user))

/-- A resource has the values of what was made, but for its metadata. -/
theorem exists_members (h : ofBackend baseUrl c user = .ok resource) :
    ∃ (members : Fields Value) (metadata : Value),
      Draft.expandMembers (making c user).look? (making c user).resource = some members ∧
        resource = members.put "meta" metadata := by
  rw [← ofBackend_view] at h
  obtain ⟨members, hmembers, h⟩ := bind_eq_ok_iff.1 h
  obtain ⟨stamps, -, h⟩ := bind_eq_ok_iff.1 h
  cases h
  refine ⟨members, _, ?_, rfl⟩
  unfold Making.finished at hmembers
  split at hmembers
  · rename_i hexpand
    cases hmembers
    exact hexpand
  · cases hmembers

variable (hname : name ∈ passedThrough) (hunique : c.UniquePaths) (halone : c.StandsAlone name)

include hname hunique halone

/-- What stands at the name when everything is written. -/
theorem get?_making : (making c user).resource.get? name =
    (nodeOf? (view c user) (c.boundTo name)).or (nodeOf? (view c user) name) := by
  have hbegun : (begun c (view c user)).resource.get? name = nodeOf? (view c user) name :=
    get?_begun (mem_usualDrafts_of_passed hname)
  have hplaces : ∀ m ∈ c.mappings, [name] <+: m.place →
      m.place = [name] ∧ m.backendAttribute = c.boundTo name := fun m hm hbegins =>
    ⟨place_eq_of_core hname (halone m hm hbegins).1 (halone m hm hbegins).2,
      (attribute_of_begins hunique halone hm hbegins).2⟩
  rw [making, get?_foldl_writeMapped hplaces, hbegun]
  split
  · rfl
  · rename_i hnot
    have hnone : c.coreMapping? name = none := by
      cases hfind : c.coreMapping? name with
      | none => rfl
      | some m =>
        obtain ⟨hm, hcore, hpath⟩ := MappingConfig.coreMapping?_eq_some hfind
        exact absurd ⟨m, hm, place_eq_of_core hname hcore hpath⟩ hnot
    rw [MappingConfig.boundTo_of_none hnone, Option.or_self]

omit hunique halone in
theorem mem_readNames_of_passed : name ∈ readNames c :=
  mem_readNames_of_usual ((by decide : ∀ name ∈ passedThrough, name ∈ readNames .empty) name hname)

omit hunique halone in
theorem mem_readNames_boundTo : c.boundTo name ∈ readNames c := by
  cases hfind : c.coreMapping? name with
  | none =>
    rw [MappingConfig.boundTo_of_none hfind]
    exact mem_readNames_of_passed hname
  | some m =>
    rw [MappingConfig.boundTo_of_some hfind]
    exact mem_readNames_of_mapping (MappingConfig.coreMapping?_eq_some hfind).1

/-- What is shown stands at the name, at the place of an attribute of the backend. -/
theorem get?_making_of_shown {v : Value} (hv : shown? c user name = some v) :
    ∃ origin ∈ readNames c, user.get? origin = some v ∧
      (making c user).resource.get? name = some (Draft.place origin v) := by
  rw [get?_making hname hunique halone, nodeOf?, nodeOf?,
    given?_view (mem_readNames_boundTo hname), given?_view (mem_readNames_of_passed hname)]
  rcases Option.or_eq_some_iff.1 hv with hbound | ⟨hnone, hown⟩
  · exact ⟨_, mem_readNames_boundTo hname, get?_of_given? hbound, by rw [hbound]; rfl⟩
  · exact ⟨_, mem_readNames_of_passed hname, get?_of_given? hown, by rw [hnone, hown]; rfl⟩

theorem get?_making_of_not_shown (hnone : shown? c user name = none) :
    (making c user).resource.get? name = none := by
  obtain ⟨hbound, hown⟩ := Option.or_eq_none_iff.1 hnone
  rw [get?_making hname hunique halone, nodeOf?, nodeOf?,
    given?_view (mem_readNames_boundTo hname), given?_view (mem_readNames_of_passed hname), hbound,
    hown]
  rfl

/-- A resource has the attribute iff something is shown of it. What is shown is the attribute, but
for an object that is written into. -/
theorem get?_ofBackend (h : ofBackend baseUrl c user = .ok resource) :
    (resource.get? name).isSome = (shown? c user name).isSome ∧
      ∀ v, shown? c user name = some v → ((∀ members, v ≠ .object members) ∨ c.Unentered) →
        resource.get? name = some v := by
  obtain ⟨members, metadata, hexpand, rfl⟩ := exists_members h
  have hmeta : name ≠ "meta" :=
    (by decide : ∀ name ∈ passedThrough, name ≠ "meta") name hname
  have hget : (members.put "meta" metadata).get? name =
      ((making c user).resource.get? name).bind (Draft.expand (making c user).look?) := by
    rw [Fields.get?_put_of_ne _ _ hmeta, Draft.get?_expandMembers hexpand]
  constructor
  · cases hv : shown? c user name with
    | none =>
      rw [hget, get?_making_of_not_shown hname hunique halone hv]
      rfl
    | some v =>
      obtain ⟨origin, -, -, hnode⟩ := get?_making_of_shown hname hunique halone hv
      obtain ⟨w, hw, -⟩ := Draft.expand_of_get? hexpand hnode
      rw [hget, hnode, Option.bind_some, hw]
      rfl
  · intro v hv hplain
    obtain ⟨origin, hread, hvalue, hnode⟩ := get?_making_of_shown hname hunique halone hv
    rw [hget, hnode, Option.bind_some]
    rcases hplain with hplain | hunentered
    · refine Making.expand_place fun members hobject => ?_
      exact absurd hobject (hplain members)
    · obtain ⟨values, hbegun⟩ := stands_begun hunentered user
      have hmaking := hbegun.run hunentered (List.Subset.refl _)
      exact expand_read hmaking.shared hread hvalue

end

end User

end ScimBridge
