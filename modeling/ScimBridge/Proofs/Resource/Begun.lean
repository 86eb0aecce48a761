import ScimBridge.Proofs.Mapping.Places
import ScimBridge.Proofs.Resource.Drafts

/-!
# A user resource before its mapped attributes

The drafts that a user resource begins with are listed in a table (`begun_eq`). They stand at the
usual places only and are held by the backend (`usual_or_name`), so they leave every other place open
(`open_begun`).
-/

namespace ScimBridge

open Resource

namespace User

variable {c : MappingConfig} {object : Fields Value}

/-! ## The attributes that are read -/

/-- The attributes of a backend user that a resource may depend on. -/
def readNames (c : MappingConfig) : List String :=
  ["_id", "_rev", "_meta", "userName", "displayName", "accountStatus"]
    ++ nameParts.map Prod.fst ++ contacts.map Prod.snd ++ passedThrough
    ++ c.mappings.map (·.backendAttribute)

/-- A backend user as far as a resource may depend on it. -/
def view (c : MappingConfig) (object : Fields Value) : Fields Value :=
  (readNames c).filterMap fun name => (object.get? name).map fun v => (name, v)

/-- What a resource depends on is found among what it looks at. -/
theorem get?_view {name : String} (h : name ∈ readNames c) :
    (view c object).get? name = object.get? name := by
  rw [view, Fields.get?_filterMap object.get?, if_pos h]

theorem given?_view {name : String} (h : name ∈ readNames c) :
    Value.given? (view c object) name = Value.given? object name := by
  unfold Value.given?
  rw [get?_view h]

theorem filled?_view {name : String} (h : name ∈ readNames c) :
    Value.filled? (view c object) name = Value.filled? object name := by
  unfold Value.filled?
  rw [get?_view h]

theorem mem_readNames_of_mapping {m : Mapping} (h : m ∈ c.mappings) :
    m.backendAttribute ∈ readNames c :=
  List.mem_append_right _ (List.mem_map_of_mem h)

theorem get?_of_given? {name : String} {v : Value} (h : Value.given? object name = some v) :
    object.get? name = some v := by
  unfold Value.given? at h
  split at h
  · cases h
  · cases h
  · rename_i w _ hw
    exact hw.trans h

theorem get?_of_filled? {name : String} {v : Value} (h : Value.filled? object name = some v) :
    object.get? name = some v :=
  (Option.filter_eq_some_iff.1 h).1

/-! ## The drafts at the beginning -/

/-- The drafts of attributes that the backend has, by their backend names and their own. -/
def draftTable (present? : Fields Value → String → Option Value) (object : Fields Value)
    (names : List (String × String)) : List (String × Option Draft) :=
  names.map fun p => (p.2, (present? object p.1).map (Draft.place p.1))

theorem placed_eq (present? : Fields Value → String → Option Value) (object : Fields Value)
    (names : List (String × String)) :
    placed present? object names = Fields.present (draftTable present? object names) := by
  rw [placed, Fields.present, draftTable, List.filterMap_map]
  refine congrArg (fun f => List.filterMap f names) (funext fun p => ?_)
  simp only [Function.comp_apply, Option.map_map]
  rfl

/-- The parts of a name. -/
def nameDrafts (object : Fields Value) : Fields Draft := placed Value.filled? object nameParts

/-- What a user resource begins with, by its names. -/
def usualDrafts (c : MappingConfig) (object : Fields Value) : List (String × Option Draft) :=
  [("schemas", some (.value (schemasOf c object))), ("id", some (identifierOf object))]
    ++ draftTable Value.given? object [("userName", "userName"), ("displayName", "displayName")]
    ++ [("active", (object.get? "accountStatus").map fun v => .value (.bool (isActive v))),
      ("name", if (nameDrafts object).isEmpty then none else some (.object (nameDrafts object)))]
    ++ contacts.map (fun p =>
      (p.1, (Value.filled? object p.2).map fun v => contactOf (Draft.place p.2 v)))
    ++ draftTable Value.given? object (passedThrough.map fun name => (name, name))

theorem begun_eq (c : MappingConfig) (object : Fields Value) :
    (begun c object).resource = Fields.present (usualDrafts c object) := by
  have hcontacts : (placed Value.filled? object (contacts.map Prod.swap)).map
      (fun p => (p.1, contactOf p.2)) = Fields.present (contacts.map fun p =>
        (p.1, (Value.filled? object p.2).map fun v => contactOf (Draft.place p.2 v))) := by
    simp only [placed, Fields.present, List.filterMap_map, List.map_filterMap]
    refine congrArg (fun f => List.filterMap f contacts) (funext fun p => ?_)
    simp only [Function.comp_apply, Option.map_map]
    rfl
  have hname : (if (nameDrafts object).isEmpty then []
      else [("name", Draft.object (nameDrafts object))]) = Fields.present [("name",
        if (nameDrafts object).isEmpty then none
        else some (.object (nameDrafts object)))] := by
    cases (nameDrafts object).isEmpty <;> rfl
  have hsplit : usualDrafts c object =
      [("schemas", some (.value (schemasOf c object))), ("id", some (identifierOf object))]
        ++ (draftTable Value.given? object (["userName", "displayName"].map fun n => (n, n))
        ++ [("active", (object.get? "accountStatus").map fun v => .value (.bool (isActive v)))]
        ++ [("name", if (nameDrafts object).isEmpty then none
          else some (.object (nameDrafts object)))]
        ++ contacts.map (fun p =>
          (p.1, (Value.filled? object p.2).map fun v => contactOf (Draft.place p.2 v)))
        ++ draftTable Value.given? object (passedThrough.map fun name => (name, name))) := rfl
  rw [hsplit]
  simp only [Fields.present_append, ← placed_eq, ← hcontacts, ← hname]
  unfold begun coreMembers
  cases object.get? "accountStatus" <;> rfl

/-- A node that stands for what the backend has. -/
inductive Held (c : MappingConfig) (object : Fields Value) : Draft → Prop
  | value (v : Value) : Held c object (.value v)
  | placed {origin : String} {v : Value} (hread : origin ∈ readNames c)
    (hv : object.get? origin = some v) : Held c object (.place origin v)
  | contact {origin : String} {v : Value} (hread : origin ∈ readNames c)
    (hv : object.get? origin = some v) : Held c object (contactOf (.place origin v))

theorem mem_readNames_of_usual {name : String} (h : name ∈ readNames .empty) :
    name ∈ readNames c :=
  List.mem_append_left _ (by simpa [readNames, MappingConfig.empty] using h)

theorem held_of_mem_draftTable {present? : Fields Value → String → Option Value}
    (hpresent : ∀ {name v}, present? object name = some v → object.get? name = some v)
    {names : List (String × String)} (hread : ∀ p ∈ names, p.1 ∈ readNames .empty)
    {name : String} {d : Draft} (h : (name, some d) ∈ draftTable present? object names) :
    name ∈ names.map Prod.snd ∧ Held c object d := by
  obtain ⟨p, hp, heq⟩ := List.mem_map.1 h
  obtain ⟨rfl, hd⟩ := Prod.mk.inj heq
  obtain ⟨v, hv, rfl⟩ := Option.map_eq_some_iff.1 hd
  exact ⟨List.mem_map_of_mem hp, .placed (mem_readNames_of_usual (hread p hp)) (hpresent hv)⟩

/-- What a user resource begins with stands at a usual place and is held by the backend, or it is
the name. -/
theorem usual_or_name {name : String} {d : Draft} (h : (name, d) ∈ (begun c object).resource) :
    ([name] ∈ usualPlaces ∧ Held c object d) ∨
      name = "name" ∧ d = .object (nameDrafts object) := by
  rw [begun_eq, Fields.mem_present] at h
  simp only [usualDrafts, List.mem_append, List.mem_cons, List.not_mem_nil, or_false, or_assoc,
    Prod.mk.injEq] at h
  rcases h with ⟨rfl, hd⟩ | ⟨rfl, hd⟩ | h | ⟨rfl, hd⟩ | ⟨rfl, hd⟩ | h | h
  · exact .inl ⟨by decide, Option.some.inj hd ▸ .value _⟩
  · refine .inl ⟨by decide, ?_⟩
    rw [Option.some.inj hd, identifierOf]
    cases hid : object.get? "_id" with
    | none => exact .value _
    | some v => exact .placed (mem_readNames_of_usual (by decide)) hid
  · obtain ⟨hname, hheld⟩ := held_of_mem_draftTable get?_of_given? (by decide) h
    exact .inl ⟨(by decide : ∀ n ∈ ["userName", "displayName"], [n] ∈ usualPlaces) name hname,
      hheld⟩
  · obtain ⟨v, -, rfl⟩ := Option.map_eq_some_iff.1 hd.symm
    exact .inl ⟨by decide, .value _⟩
  · right
    split at hd
    · cases hd
    · exact ⟨rfl, Option.some.inj hd⟩
  · obtain ⟨p, hp, heq⟩ := List.mem_map.1 h
    obtain ⟨rfl, hd⟩ := Prod.mk.inj heq
    obtain ⟨v, hv, rfl⟩ := Option.map_eq_some_iff.1 hd
    have hcontacts : ∀ p ∈ contacts, [p.1] ∈ usualPlaces ∧ p.2 ∈ readNames .empty := by decide
    exact .inl ⟨(hcontacts p hp).1,
      .contact (mem_readNames_of_usual (hcontacts p hp).2) (get?_of_filled? hv)⟩
  · obtain ⟨hname, hheld⟩ := held_of_mem_draftTable get?_of_given? (by decide) h
    obtain ⟨p, hp, rfl⟩ := List.mem_map.1 hname
    obtain ⟨n, hn, rfl⟩ := List.mem_map.1 hp
    exact .inl ⟨mem_usualPlaces_of_passed hn, hheld⟩

theorem held_of_mem_nameDrafts {name : String} {d : Draft} (h : (name, d) ∈ nameDrafts object) :
    ["name", name] ∈ usualPlaces ∧ Held c object d := by
  rw [nameDrafts, placed_eq, Fields.mem_present] at h
  obtain ⟨hname, hheld⟩ := held_of_mem_draftTable (c := c) get?_of_filled? (by decide) h
  exact ⟨(by decide : ∀ n ∈ nameParts.map Prod.snd, ["name", n] ∈ usualPlaces) name hname, hheld⟩

/-- A place that no usual place leads to is open at the beginning. -/
theorem open_begun {names : List String}
    (h : ∀ p ∈ usualPlaces, p <+: names → p = names) : Open names (begun c object).resource := by
  rcases names with _ | ⟨name, _ | ⟨next, rest⟩⟩
  · trivial
  · trivial
  intro w hw
  rcases usual_or_name (Fields.mem_of_get? hw) with ⟨hplace, -⟩ | ⟨rfl, rfl⟩
  · exact absurd (h _ hplace (List.cons_prefix_cons.2 ⟨rfl, List.nil_prefix⟩)) (by simp)
  · refine ⟨_, rfl, ?_⟩
    cases rest with
    | nil => trivial
    | cons last rest =>
      intro w' hw'
      have hplace := (held_of_mem_nameDrafts (c := c) (Fields.mem_of_get? hw')).1
      exact absurd (h _ hplace (by simp)) (by simp)

/-- Nothing stands at a place apart from the usual ones at the beginning. -/
theorem at?_begun_of_apart {names : List String} (h : ∀ p ∈ usualPlaces, Apart names p) :
    at? names (begun c object).resource = none := by
  rcases names with _ | ⟨name, rest⟩
  · rfl
  cases hw : (begun c object).resource.get? name with
  | none => cases rest <;> simp [at?, hw]
  | some w =>
    rcases usual_or_name (Fields.mem_of_get? hw) with ⟨hplace, -⟩ | ⟨rfl, rfl⟩
    · exact absurd (List.cons_prefix_cons.2 ⟨rfl, List.nil_prefix⟩) (h _ hplace).2
    -- the name itself is in front of its parts, so a place apart leads to another part
    cases rest with
    | nil =>
      have hpart : ["name", "givenName"] ∈ usualPlaces := by decide
      exact absurd (by simp) (h _ hpart).1
    | cons next rest =>
      have hnext : (nameDrafts object).get? next = Fields.get? [] next := by
        cases hget : (nameDrafts object).get? next with
        | none => rfl
        | some v =>
          have hplace := (held_of_mem_nameDrafts (c := c) (Fields.mem_of_get? hget)).1
          exact absurd (by simp) (h _ hplace).2
      simp only [at?, hw, Option.bind_some, Nested.members?, Draft.members?]
      rw [at?_congr hnext, at?_nil]

/-! ## What they hold -/

theorem keys_usualDrafts_nodup : ((usualDrafts c object).map Prod.fst).Nodup :=
  (by decide : (["schemas", "id", "userName", "displayName", "active", "name"]
    ++ contacts.map Prod.fst ++ passedThrough).Nodup)

theorem get?_begun {name : String} {d? : Option Draft} (h : (name, d?) ∈ usualDrafts c object) :
    (begun c object).resource.get? name = d? := by
  rw [begun_eq]
  exact Fields.get?_present keys_usualDrafts_nodup h

/-- Nothing is begun under any other name. -/
theorem get?_begun_of_not_mem {name : String}
    (h : name ∉ (usualDrafts c object).map Prod.fst) :
    (begun c object).resource.get? name = none := by
  rw [begun_eq, Fields.get?_eq_none_iff]
  intro hkey
  obtain ⟨p, hp, rfl⟩ := List.mem_map.1 hkey
  exact h (List.mem_map.2 ⟨_, Fields.mem_present.1 hp, rfl⟩)

theorem get?_begun_password :
    (begun c object).resource.get? "password" = none :=
  get?_begun_of_not_mem (by simp [usualDrafts, draftTable, contacts, passedThrough])

theorem mem_usualDrafts_of_passed {name : String}
    (h : name ∈ passedThrough) :
    (name, (Value.given? object name).map (Draft.place name)) ∈ usualDrafts c object :=
  List.mem_append_right _ (List.mem_map_of_mem (List.mem_map_of_mem h))

theorem mem_usualDrafts_of_contact {p : String × String}
    (h : p ∈ contacts) :
    (p.1, (Value.filled? object p.2).map fun v => contactOf (Draft.place p.2 v)) ∈
      usualDrafts c object :=
  List.mem_append_left _ (List.mem_append_right _ (List.mem_map_of_mem h))

theorem get?_nameDrafts {p : String × String} (h : p ∈ nameParts) :
    (nameDrafts object).get? p.2 = (Value.filled? object p.1).map (Draft.place p.1) := by
  rw [nameDrafts, placed_eq]
  exact Fields.get?_present (by rw [draftTable, List.map_map]; exact
    (by decide : (nameParts.map Prod.snd).Nodup)) (List.mem_map_of_mem h)

theorem at?_begun_of_namePart {p : String × String} (h : p ∈ nameParts) :
    at? ["name", p.2] (begun c object).resource =
      (Value.filled? object p.1).map (Draft.place p.1) := by
  have hname : ("name", if (nameDrafts object).isEmpty then none
      else some (.object (nameDrafts object))) ∈ usualDrafts c object := by
    simp [usualDrafts]
  rw [← get?_nameDrafts h, at?, get?_begun hname]
  split
  · rename_i hempty
    rw [List.isEmpty_iff.1 hempty]
    rfl
  · rfl

end User

end ScimBridge
