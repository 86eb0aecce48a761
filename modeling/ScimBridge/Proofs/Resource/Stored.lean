import ScimBridge.Proofs.Mapping.Places

/-!
# What a user resource stores

The backend attributes of a user resource are entries stored one after the other (`toBackend_eq`):
those of the core attributes, then those that are passed through, and those of the mappings last. So
the last entry of an attribute is what it holds.
-/

namespace ScimBridge

open Resource

namespace Value

/-- A value that is not null. -/
def nonNull? : Value → Option Value
  | .null => none
  | v => some v

theorem nonNull?_eq_some_iff {v w : Value} : v.nonNull? = some w ↔ v = w ∧ v ≠ .null := by
  cases v <;> simp [nonNull?]

theorem nonNull?_of_ne {v : Value} (h : v ≠ .null) : v.nonNull? = some v :=
  nonNull?_eq_some_iff.2 ⟨rfl, h⟩

theorem given?_eq (members : Fields Value) (name : String) :
    given? members name = (members.get? name).bind nonNull? := by
  unfold given?
  cases members.get? name with
  | none => rfl
  | some v => cases v <;> rfl

theorem given?_eq_some_iff {members : Fields Value} {name : String} {v : Value} :
    given? members name = some v ↔ members.get? name = some v ∧ v ≠ .null := by
  rw [given?_eq, Option.bind_eq_some_iff]
  constructor
  · rintro ⟨w, hw, hv⟩
    obtain ⟨rfl, hne⟩ := nonNull?_eq_some_iff.1 hv
    exact ⟨hw, hne⟩
  · rintro ⟨hv, hne⟩
    exact ⟨v, hv, nonNull?_of_ne hne⟩

end Value

namespace User

/-! ## Entries -/

variable (c : MappingConfig) (resource : Fields Value)

/-- The entries of attributes that are stored under their own names. -/
def sameEntries (names : List String) : Fields Value :=
  names.filterMap fun name => (Value.given? resource name).map fun v => (name, v)

/-- The entry of the account status. -/
def statusEntries : Fields Value :=
  ((Value.given? resource "active").map fun v => ("accountStatus", statusWord (asTruth v))).toList

/-- The entries of the parts of the name. -/
def nameEntries : Fields Value :=
  match resource.get? "name" with
  | some (.object parts) =>
    nameParts.filterMap fun p => (Value.given? parts p.2).map fun v => (p.1, v)
  | _ => []

/-- The entries of the contacts. -/
def contactEntries : Fields Value :=
  contacts.filterMap fun p =>
    (primaryValue ((resource.get? p.1).getD .null)).nonNull?.map fun v => (p.2, v)

/-- The entries of the core attributes that are not passed through. -/
def coreEntries : Fields Value :=
  sameEntries resource ["userName", "displayName", "password"] ++ statusEntries resource
    ++ nameEntries resource ++ contactEntries resource

/-- The attributes that are passed through because no mapping answers for their path. -/
def passedNames : List String := passedThrough.filter fun name => (c.byPath? name).isNone

/-- What a resource gives for a mapped attribute. -/
def mapped? (m : Mapping) : Option Value := (at? m.place resource).bind Value.nonNull?

/-- The entries of some mappings. -/
def mappedEntries (mappings : List Mapping) : Fields Value :=
  mappings.filterMap fun m => (mapped? resource m).map fun v => (m.backendAttribute, v)

/-- The entries of a user resource. -/
def entries : Fields Value :=
  coreEntries resource ++ sameEntries resource (passedNames c) ++ mappedEntries resource c.mappings

/-! ## Storing them -/

variable {c resource}

theorem copyGiven_eq (source : Fields Value) (name backendName : String) (target : Fields Value) :
    copyGiven source name backendName target =
      (((Value.given? source name).map fun v => (backendName, v)).map
        fun p => target.put p.1 p.2).getD target := by
  unfold copyGiven
  cases Value.given? source name <;> rfl

theorem putStatus_eq (target : Fields Value) :
    putStatus resource target = target.putAll (statusEntries resource) := by
  unfold putStatus statusEntries
  cases Value.given? resource "active" <;> rfl

theorem putName_eq (target : Fields Value) :
    putName resource target = target.putAll (nameEntries resource) := by
  unfold putName
  split
  · rename_i parts h
    simp only [nameEntries, h]
    exact Fields.foldl_eq_putAll (fun acc p => copyGiven_eq parts p.2 p.1 acc) nameParts target
  · rename_i h
    have hnone : nameEntries resource = [] := by
      unfold nameEntries
      split
      · rename_i parts hparts
        exact (h parts hparts).elim
      · rfl
    rw [hnone]
    rfl

theorem putContacts_eq (target : Fields Value) :
    putContacts resource target = target.putAll (contactEntries resource) := by
  refine Fields.foldl_eq_putAll (fun acc p => ?_) contacts target
  split
  · rename_i h
    rw [h]
    rfl
  · rename_i h
    rw [Value.nonNull?_of_ne h]
    rfl

theorem putPassed_eq (target : Fields Value) :
    putPassed c resource target = target.putAll (sameEntries resource (passedNames c)) := by
  have hstep : ∀ (acc : Fields Value) (name : String),
      (if (c.byPath? name).isSome then acc else copyGiven resource name name acc) =
        ((if (c.byPath? name).isNone then (Value.given? resource name).map fun v => (name, v)
          else none).map fun p => acc.put p.1 p.2).getD acc := by
    intro acc name
    cases c.byPath? name with
    | none => exact copyGiven_eq resource name name acc
    | some m => rfl
  rw [putPassed, Fields.foldl_eq_putAll hstep, sameEntries, passedNames, List.filterMap_filter]

theorem mapped?_eq (m : Mapping) :
    (Resource.read (if m.isEnterprise then (resource.get? Urn.enterpriseUser).getD .null
      else .object resource) m.path).nonNull? = mapped? resource m := by
  have hplace : Resource.read (if m.isEnterprise then
      (resource.get? Urn.enterpriseUser).getD .null else .object resource) m.path =
        readAt m.place (.object resource) := by
    cases he : m.isEnterprise with
    | true => rw [Mapping.place_of_enterprise he]; rfl
    | false => rw [Mapping.place_of_core he]; rfl
  rw [hplace, readAt_object m.place_ne_nil, mapped?]
  cases at? m.place resource <;> rfl

theorem putMapped_eq (target : Fields Value) (m : Mapping) :
    putMapped resource target m =
      (((mapped? resource m).map fun v => (m.backendAttribute, v)).map
        fun p => target.put p.1 p.2).getD target := by
  rw [← mapped?_eq]
  unfold putMapped
  extract_lets source
  split
  · rename_i h
    rw [h]
    rfl
  · rename_i h
    rw [Value.nonNull?_of_ne h]
    rfl

/-- A user resource stores its entries one after the other. -/
theorem toBackend_eq (c : MappingConfig) (resource : Fields Value) :
    toBackend c resource = Fields.ofEntries (entries c resource) := by
  have hplain : ["userName", "displayName", "password"].foldl
      (fun acc name => copyGiven resource name name acc) [] =
        Fields.putAll [] (sameEntries resource ["userName", "displayName", "password"]) :=
    Fields.foldl_eq_putAll (fun acc name => copyGiven_eq resource name name acc) _ _
  rw [toBackend, Fields.foldl_eq_putAll putMapped_eq]
  simp only [hplain, putStatus_eq, putName_eq, putContacts_eq, putPassed_eq]
  simp only [Fields.ofEntries, entries, coreEntries, mappedEntries, Fields.putAll_append]

/-- An attribute of the backend holds the last entry that is stored under its name. -/
theorem get?_toBackend (name : String) :
    (toBackend c resource).get? name = Fields.get? (entries c resource).reverse name := by
  rw [toBackend_eq, Fields.ofEntries, Fields.get?_putAll, Fields.get?_nil, Option.or_none]

/-! ## Parts of a resource -/

theorem sameEntries_eq_nil {names : List String}
    (h : ∀ name ∈ names, resource.get? name = none) : sameEntries resource names = [] :=
  List.filterMap_eq_nil_iff.2 fun name hname => by rw [Value.given?_eq, h name hname]; rfl

/-- The places of core attributes that have a backend name or shape of their own. -/
def corePlaces : List (List String) :=
  [["userName"], ["displayName"], ["password"], ["active"]]
    ++ nameParts.map (fun p => ["name", p.2]) ++ contacts.map fun p => [p.1]

/-- Where there is nothing at the places of core attributes, none is stored. -/
theorem coreEntries_eq_nil (h : ∀ p ∈ corePlaces, at? p resource = none) :
    coreEntries resource = [] := by
  have hget : ∀ name, [name] ∈ corePlaces → resource.get? name = none := fun name => h [name]
  have hsame : sameEntries resource ["userName", "displayName", "password"] = [] :=
    sameEntries_eq_nil fun name hname => hget name
      ((by decide : ∀ name ∈ ["userName", "displayName", "password"], [name] ∈ corePlaces) name hname)
  have hstatus : statusEntries resource = [] := by
    rw [statusEntries, Value.given?_eq, hget "active" (by decide)]
    rfl
  have hname : nameEntries resource = [] := by
    unfold nameEntries
    split
    · rename_i parts hparts
      refine List.filterMap_eq_nil_iff.2 fun p hp => ?_
      have hpart : at? ["name", p.2] resource = none :=
        h _ ((by decide : ∀ p ∈ nameParts, ["name", p.2] ∈ corePlaces) p hp)
      rw [at?, hparts] at hpart
      have hnone : Fields.get? parts p.2 = none := hpart
      rw [Value.given?_eq, hnone]
      rfl
    · rfl
  have hcontacts : contactEntries resource = [] :=
    List.filterMap_eq_nil_iff.2 fun p hp => by
      rw [hget p.1 ((by decide : ∀ p ∈ contacts, [p.1] ∈ corePlaces) p hp)]
      rfl
  rw [coreEntries, hsame, hstatus, hname, hcontacts]
  rfl

/-- Where a resource gives one mapped attribute and no other one, this is the only entry. -/
theorem mappedEntries_eq_singleton {mappings : List Mapping}
    (h : mappings.Pairwise fun m m' => mapped? resource m = none ∨ mapped? resource m' = none)
    {m : Mapping} (hm : m ∈ mappings) {v : Value} (hv : mapped? resource m = some v) :
    mappedEntries resource mappings = [(m.backendAttribute, v)] := by
  refine Fields.filterMap_eq_singleton (h.imp ?_) hm (by rw [hv]; rfl)
  intro m m' hnone
  exact hnone.imp (fun h => by rw [h]; rfl) fun h => by rw [h]; rfl

/-- A resource that gives nothing stores nothing. -/
theorem toBackend_nil : toBackend c [] = [] := by
  have hcore : coreEntries [] = [] := coreEntries_eq_nil fun p _ => at?_nil p
  have hpassed : sameEntries [] (passedNames c) = [] := sameEntries_eq_nil fun _ _ => rfl
  have hmapped : mappedEntries [] c.mappings = [] :=
    List.filterMap_eq_nil_iff.2 fun m _ => by rw [mapped?, at?_nil]; rfl
  rw [toBackend_eq, entries, hcore, hpassed, hmapped]
  rfl

end User

end ScimBridge
