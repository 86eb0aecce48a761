import Mathlib.Data.List.Nodup
import ScimBridge.Proofs.Resource.Stored

/-!
# Where backend attributes are taken from

Each backend attribute of a user resource is taken from one place in it, so from one member at its
top (`entries_eq`). Hence the attributes of a resource are those of its members on their own, unless
two members give the same attribute (`toBackend_perm`). A partial resource that holds one value
gives attributes iff one of them is taken from the place of the value or from above it
(`toBackend_writeAt_eq_nil_iff`).
-/

namespace ScimBridge

open Resource

namespace User

/-- Where one backend attribute is taken from: the name of a member of the resource, the names that
lead on inside it, and how the attribute is read off the member. -/
structure Slot where
  name : String
  inside : List String
  field : String
  read : Value → Option Value

namespace Slot

/-- The place in a resource. -/
def place (s : Slot) : List String := s.name :: s.inside

/-- What a resource gives for the attribute. -/
def entry (s : Slot) (resource : Fields Value) : Option (String × Value) :=
  ((resource.get? s.name).bind s.read).map fun v => (s.field, v)

/-- An attribute that is stored as it is, under its own name. -/
def same (name : String) : Slot := ⟨name, [], name, Value.nonNull?⟩

/-- The account status. -/
def status : Slot :=
  ⟨"active", [], "accountStatus", fun v => v.nonNull?.map fun w => statusWord (asTruth w)⟩

/-- A part of the name. -/
def namePart (p : String × String) : Slot :=
  ⟨"name", [p.2], p.1, fun v => match v with
    | .object parts => Value.given? parts p.2
    | _ => none⟩

/-- The primary value of a contact. -/
def contact (p : String × String) : Slot :=
  ⟨p.1, ["value"], p.2, fun v => (primaryValue v).nonNull?⟩

/-- A mapped attribute. -/
def mapped (m : Mapping) : Slot :=
  ⟨m.place.head m.place_ne_nil, m.place.tail, m.backendAttribute,
    fun v => (readAt m.place.tail v).nonNull?⟩

theorem place_mapped (m : Mapping) : (mapped m).place = m.place := List.cons_head_tail _

end Slot

/-- The slots that there are without a mapping and that are not passed through. -/
def coreSlots : List Slot :=
  ["userName", "displayName", "password"].map Slot.same ++ [Slot.status]
    ++ nameParts.map Slot.namePart ++ contacts.map Slot.contact

/-- The slots of a user resource, in the order in which they are read. -/
def slots (c : MappingConfig) : List Slot :=
  coreSlots ++ (passedNames c).map Slot.same ++ c.mappings.map Slot.mapped

variable {c : MappingConfig} {resource : Fields Value}

/-! ## Entries are read off slots -/

theorem sameEntries_eq (names : List String) :
    sameEntries resource names = (names.map Slot.same).filterMap (Slot.entry · resource) := by
  rw [sameEntries, List.filterMap_map]
  refine List.filterMap_congr fun name _ => ?_
  rw [Value.given?_eq]
  rfl

theorem statusEntries_eq :
    statusEntries resource = [Slot.status].filterMap (Slot.entry · resource) := by
  have hentry : Slot.status.entry resource =
      (Value.given? resource "active").map fun v => ("accountStatus", statusWord (asTruth v)) := by
    rw [Value.given?_eq, Slot.entry]
    show ((resource.get? "active").bind fun v => _).map _ = _
    cases resource.get? "active" with
    | none => rfl
    | some v => exact Option.map_map _ _ _
  rw [statusEntries, List.filterMap_cons, hentry]
  cases Value.given? resource "active" <;> rfl

theorem nameEntries_eq :
    nameEntries resource = (nameParts.map Slot.namePart).filterMap (Slot.entry · resource) := by
  rw [List.filterMap_map]
  unfold nameEntries
  split
  · rename_i parts hparts
    refine List.filterMap_congr fun p _ => ?_
    show _ = ((resource.get? "name").bind _).map _
    rw [hparts]
    rfl
  · rename_i hnot
    symm
    refine List.filterMap_eq_nil_iff.2 fun p _ => ?_
    show ((resource.get? "name").bind _).map _ = none
    cases hname : resource.get? "name" with
    | none => rfl
    | some v =>
      cases v with
      | object parts => exact (hnot parts hname).elim
      | _ => rfl

theorem contactEntries_eq :
    contactEntries resource = (contacts.map Slot.contact).filterMap (Slot.entry · resource) := by
  rw [contactEntries, List.filterMap_map]
  refine List.filterMap_congr fun p _ => ?_
  show _ = ((resource.get? p.1).bind fun v => (primaryValue v).nonNull?).map _
  cases resource.get? p.1 <;> rfl

theorem mapped?_eq_bind (m : Mapping) : mapped? resource m =
    (resource.get? (m.place.head m.place_ne_nil)).bind
      fun v => (readAt m.place.tail v).nonNull? := by
  rw [mapped?]
  obtain ⟨name, rest, hplace⟩ := List.exists_cons_of_ne_nil m.place_ne_nil
  simp only [hplace, List.head_cons, List.tail_cons]
  cases rest with
  | nil => rfl
  | cons next rest =>
    rw [at?]
    cases resource.get? name with
    | none => rfl
    | some v =>
      rw [Option.bind_some, Option.bind_some, readAt_eq (List.cons_ne_nil next rest)]
      show (v.members?.bind _).bind _ = _
      cases v.members?.bind (at? (next :: rest)) <;> rfl

theorem mappedEntries_eq (mappings : List Mapping) :
    mappedEntries resource mappings =
      (mappings.map Slot.mapped).filterMap (Slot.entry · resource) := by
  rw [mappedEntries, List.filterMap_map]
  refine List.filterMap_congr fun m _ => ?_
  rw [mapped?_eq_bind]
  rfl

/-- Each entry of a resource is read off its slot. -/
theorem entries_eq (c : MappingConfig) (resource : Fields Value) :
    entries c resource = (slots c).filterMap (Slot.entry · resource) := by
  rw [entries, coreEntries, sameEntries_eq, sameEntries_eq, statusEntries_eq, nameEntries_eq,
    contactEntries_eq, mappedEntries_eq, slots, coreSlots]
  simp only [List.filterMap_append]

theorem mem_entries_iff {e : String × Value} :
    e ∈ entries c resource ↔ ∃ s ∈ slots c, s.entry resource = some e := by
  rw [entries_eq, List.mem_filterMap]

theorem nodup_keys_toBackend (c : MappingConfig) (resource : Fields Value) :
    (toBackend c resource).keys.Nodup := by
  have hnil : (Fields.keys ([] : Fields Value)).Nodup := List.nodup_nil
  rw [toBackend_eq]
  exact Fields.nodup_keys_putAll hnil _

/-- An attribute is stored iff there is an entry of it. -/
theorem mem_keys_toBackend_iff {field : String} :
    field ∈ (toBackend c resource).keys ↔ ∃ e ∈ entries c resource, e.1 = field := by
  rw [← Fields.isSome_get?_iff, get?_toBackend, Fields.isSome_get?_iff, Fields.keys, List.mem_map]
  simp only [List.mem_reverse]

/-- What is stored is one of the entries. -/
theorem mem_entries_of_mem_toBackend {e : String × Value} (h : e ∈ toBackend c resource) :
    e ∈ entries c resource := by
  have hget : (toBackend c resource).get? e.1 = some e.2 :=
    (Fields.get?_eq_some_iff (nodup_keys_toBackend c resource)).2 h
  rw [get?_toBackend] at hget
  exact List.mem_reverse.1 (Fields.mem_of_get? hget)

theorem toBackend_eq_nil_iff : toBackend c resource = [] ↔ entries c resource = [] := by
  constructor
  · intro hnil
    refine List.eq_nil_iff_forall_not_mem.2 fun e he => ?_
    have hmem : e.1 ∈ (toBackend c resource).keys := mem_keys_toBackend_iff.2 ⟨e, he, rfl⟩
    rw [hnil] at hmem
    cases hmem
  · intro hnil
    rw [toBackend_eq, hnil]
    rfl

/-! ## Members on their own -/

namespace Slot

variable {s : Slot} {name : String} {v : Value}

theorem entry_single_self (h : s.name = name) :
    s.entry [(name, v)] = (s.read v).map fun w => (s.field, w) := by
  rw [entry, h, Fields.get?_cons, if_pos (beq_self_eq_true name), Option.bind_some]

theorem entry_single_of_ne (h : s.name ≠ name) : s.entry [(name, v)] = none := by
  rw [entry, Fields.get?_cons, if_neg (by simpa using h), Fields.get?_nil]
  rfl

/-- What a slot gives is given by one member on its own. -/
theorem exists_member {e : String × Value} (h : s.entry resource = some e) :
    ∃ p ∈ resource, s.name = p.1 ∧ s.entry [p] = some e := by
  obtain ⟨w, hw, -⟩ := Option.map_eq_some_iff.1 h
  obtain ⟨v, hv, -⟩ := Option.bind_eq_some_iff.1 hw
  refine ⟨(s.name, v), Fields.mem_of_get? hv, rfl, ?_⟩
  rwa [entry_single_self rfl, ← Option.bind_some v s.read, ← hv]

end Slot

/-- Whatever a resource stores is stored by one of its members on its own. -/
theorem exists_member_of_mem_keys {field : String} (h : field ∈ (toBackend c resource).keys) :
    ∃ p ∈ resource, field ∈ (toBackend c [p]).keys := by
  obtain ⟨e, he, hfield⟩ := mem_keys_toBackend_iff.1 h
  obtain ⟨s, hs, hentry⟩ := mem_entries_iff.1 he
  obtain ⟨p, hp, -, hmember⟩ := Slot.exists_member hentry
  exact ⟨p, hp, mem_keys_toBackend_iff.2 ⟨e, mem_entries_iff.2 ⟨s, hs, hmember⟩, hfield⟩⟩

/-- An attribute that one member alone gives is stored as this member stores it. -/
theorem get?_toBackend_of_alone (hnodup : resource.keys.Nodup) {p : String × Value}
    (hp : p ∈ resource) {field : String}
    (halone : ∀ q ∈ resource, q ≠ p → field ∉ (toBackend c [q]).keys) :
    (toBackend c resource).get? field = (toBackend c [p]).get? field := by
  rw [get?_toBackend, get?_toBackend, entries_eq, entries_eq]
  refine Fields.get?_reverse_filterMap_congr fun s hs => ?_
  by_cases hname : s.name = p.1
  · left
    have hget : resource.get? p.1 = some p.2 := (Fields.get?_eq_some_iff hnodup).2 hp
    rw [Slot.entry_single_self hname, Slot.entry, hname, hget, Option.bind_some]
  · -- the slot reads another member, which does not give the attribute
    right
    refine ⟨fun e he heq => ?_, fun e he => ?_⟩
    · obtain ⟨q, hq, hread, hentry⟩ := Slot.exists_member he
      have hne : q ≠ p := by
        rintro rfl
        exact hname hread
      exact halone q hq hne (mem_keys_toBackend_iff.2 ⟨e, mem_entries_iff.2 ⟨s, hs, hentry⟩, heq⟩)
    · rw [Slot.entry_single_of_ne hname] at he
      cases he

/-- If no two members give the same attribute, what a resource stores is what its members store, each
on its own. -/
theorem toBackend_perm (hnodup : resource.keys.Nodup)
    (happart : resource.Pairwise fun p q =>
      ∀ field ∈ (toBackend c [p]).keys, field ∉ (toBackend c [q]).keys) :
    (toBackend c resource).Perm (resource.flatMap fun p => toBackend c [p]) := by
  have hsymm : Std.Symm fun p q : String × Value =>
      ∀ field ∈ (toBackend c [p]).keys, field ∉ (toBackend c [q]).keys :=
    ⟨fun p q h field hq hp => h field hp hq⟩
  have halone : ∀ p ∈ resource, ∀ field ∈ (toBackend c [p]).keys, ∀ q ∈ resource, q ≠ p →
      field ∉ (toBackend c [q]).keys := fun p hp field hfield q hq hne =>
    happart.forall hp hq (Ne.symm hne) field hfield
  have hlists : ∀ resource : Fields Value, (toBackend c resource).Nodup := fun resource =>
    List.Nodup.of_map _ (nodup_keys_toBackend c resource)
  refine (List.perm_ext_iff_of_nodup (hlists resource) ?_).2 fun ⟨field, v⟩ => ?_
  · refine List.nodup_flatMap.2 ⟨fun p _ => hlists [p], happart.imp fun hpq e hp hq => ?_⟩
    exact hpq e.1 (List.mem_map_of_mem hp) (List.mem_map_of_mem hq)
  · have hmem : ∀ resource : Fields Value, (field, v) ∈ toBackend c resource ↔
        (toBackend c resource).get? field = some v := fun resource =>
      (Fields.get?_eq_some_iff (nodup_keys_toBackend c resource)).symm
    rw [List.mem_flatMap]
    constructor
    · intro h
      obtain ⟨p, hp, hfield⟩ := exists_member_of_mem_keys (List.mem_map_of_mem h)
      refine ⟨p, hp, (hmem _).2 ?_⟩
      rw [← get?_toBackend_of_alone hnodup hp (halone p hp field hfield)]
      exact (hmem _).1 h
    · rintro ⟨p, hp, h⟩
      have hfield : field ∈ (toBackend c [p]).keys := List.mem_map_of_mem h
      rw [hmem, get?_toBackend_of_alone hnodup hp (halone p hp field hfield)]
      exact (hmem _).1 h

/-! ## One value in a partial resource -/

/-- A value inside objects of one member each. -/
def nest : List String → Value → Value
  | [], v => v
  | name :: rest, v => .object [(name, nest rest v)]

theorem nest_ne_null {v : Value} (hv : v ≠ .null) (names : List String) : nest names v ≠ .null := by
  cases names with
  | nil => exact hv
  | cons name rest => simp [nest]

theorem writeAt_nil (v : Value) (name : String) (rest : List String) :
    writeAt v (name :: rest) [] = [(name, nest rest v)] := by
  induction rest generalizing name with
  | nil => rfl
  | cons next rest ih =>
    show Fields.put [] name (Value.object (writeAt v (next :: rest) [])) = _
    rw [ih]
    rfl

theorem readAt_null (names : List String) : readAt names .null = .null := by
  induction names with
  | nil => rfl
  | cons name rest ih => exact ih

theorem get?_single (name other : String) (v : Value) :
    (Value.object [(name, v)]).get? other = if other = name then some v else none := by
  show Fields.get? [(name, v)] other = _
  rw [Fields.get?_cons, Fields.get?_nil]
  simp only [beq_iff_eq]

/-- Reading finds what lies at or below the place that is read. -/
theorem isSome_readAt_nest {names place : List String} {v : Value} (hv : v ≠ .null)
    (h : ¬ names <+: place) :
    (readAt place (nest names v)).nonNull?.isSome = true ↔ place <+: names := by
  induction place generalizing names with
  | nil =>
    rw [readAt, Value.nonNull?_of_ne (nest_ne_null hv names)]
    exact iff_of_true rfl List.nil_prefix
  | cons name place ih =>
    cases names with
    | nil => exact absurd List.nil_prefix h
    | cons other names =>
      rw [nest, readAt, get?_single, List.cons_prefix_cons]
      by_cases hname : name = other
      · subst hname
        rw [if_pos rfl, Option.getD_some, ih fun hprefix => h (List.cons_prefix_cons.2 ⟨rfl, hprefix⟩)]
        exact (and_iff_right rfl).symm
      · rw [if_neg hname, Option.getD_none, readAt_null]
        exact iff_of_false (by simp [Value.nonNull?]) fun hprefix => hname hprefix.1

/-- An entry on its own is the one that is read, whether it is marked as the primary one or not. -/
theorem primaryValue_object (members : Fields Value) :
    primaryValue (.object members) = (members.get? "value").getD .null := by
  have hfirst : ∀ isPrimary : Value → Bool,
      ([Value.object members].find? isPrimary).getD (.object members) = .object members := by
    intro isPrimary
    rw [List.find?_singleton]
    split <;> rfl
  unfold primaryValue
  simp only [hfirst]

namespace Slot

variable {s : Slot} {names : List String} {v : Value}

theorem isSome_read_namePart (hv : v ≠ .null) (p : String × String) (h : ¬ names <+: [p.2]) :
    ((namePart p).read (nest names v)).isSome = true ↔ [p.2] <+: names := by
  cases names with
  | nil => exact absurd List.nil_prefix h
  | cons name rest =>
    show (Value.given? [(name, nest rest v)] p.2).isSome = true ↔ _
    rw [Value.given?_eq, Fields.get?_cons, Fields.get?_nil, List.cons_prefix_cons]
    by_cases hname : p.2 = name
    · simp [hname, Value.nonNull?_of_ne (nest_ne_null hv rest)]
    · simp [hname]

theorem isSome_read_contact (hv : v ≠ .null) (p : String × String) (h : ¬ names <+: ["value"]) :
    ((contact p).read (nest names v)).isSome = true ↔ ["value"] <+: names := by
  cases names with
  | nil => exact absurd List.nil_prefix h
  | cons name rest =>
    show (primaryValue (.object [(name, nest rest v)])).nonNull?.isSome = true ↔ _
    rw [primaryValue_object, Fields.get?_cons, Fields.get?_nil, List.cons_prefix_cons]
    by_cases hname : "value" = name
    · simp [← hname, Value.nonNull?_of_ne (nest_ne_null hv rest)]
    · simp [hname, Value.nonNull?]

/-- A slot finds what lies at or below its place. -/
theorem isSome_read_nest (hs : s ∈ slots c) (hv : v ≠ .null) (h : ¬ names <+: s.inside) :
    (s.read (nest names v)).isSome = true ↔ s.inside <+: names := by
  have hplain : ∀ name, ((same name).read (nest names v)).isSome = true ↔
      (same name).inside <+: names := fun name => by
    show (nest names v).nonNull?.isSome = true ↔ [] <+: names
    rw [Value.nonNull?_of_ne (nest_ne_null hv names)]
    exact iff_of_true rfl List.nil_prefix
  simp only [slots, coreSlots, List.mem_append, List.mem_map, List.mem_singleton] at hs
  rcases hs with ((((⟨name, -, rfl⟩ | rfl) | ⟨p, -, rfl⟩) | ⟨p, -, rfl⟩) | ⟨name, -, rfl⟩) |
    ⟨m, -, rfl⟩
  · exact hplain name
  · show ((nest names v).nonNull?.map _).isSome = true ↔ [] <+: names
    rw [Value.nonNull?_of_ne (nest_ne_null hv names)]
    exact iff_of_true rfl List.nil_prefix
  · exact isSome_read_namePart hv p h
  · exact isSome_read_contact hv p h
  · exact hplain name
  · exact isSome_readAt_nest hv h

/-- Where no slot lies at or below a place, a slot gives something for a value there iff it lies above
it. -/
theorem isSome_entry_writeAt (hs : s ∈ slots c) {place : List String} (hplace : place ≠ [])
    (hv : v ≠ .null) (h : ¬ place <+: s.place) :
    (s.entry (writeAt v place [])).isSome = true ↔ s.place <+: place := by
  obtain ⟨name, rest, rfl⟩ := List.exists_cons_of_ne_nil hplace
  rw [writeAt_nil, Slot.place, List.cons_prefix_cons]
  by_cases hname : s.name = name
  · have hinside : ¬ rest <+: s.inside := fun hprefix =>
      h (List.cons_prefix_cons.2 ⟨hname.symm, hprefix⟩)
    rw [entry_single_self hname, Option.isSome_map, isSome_read_nest hs hv hinside]
    exact (and_iff_right hname).symm
  · rw [entry_single_of_ne hname]
    exact iff_of_false (by simp) fun hprefix => hname hprefix.1

end Slot

section

variable {place : List String} (hplace : place ≠ []) {v : Value} (hv : v ≠ .null)
  (h : ∀ s ∈ slots c, ¬ place <+: s.place)

include hplace hv h

/-- A value at a place below all that is taken from there is stored iff something is taken from above
the place. -/
theorem toBackend_writeAt_eq_nil_iff :
    toBackend c (writeAt v place []) = [] ↔ ∀ s ∈ slots c, ¬ s.place <+: place := by
  rw [toBackend_eq_nil_iff, entries_eq, List.filterMap_eq_nil_iff]
  refine forall₂_congr fun s hs => ?_
  rw [← Slot.isSome_entry_writeAt hs hplace hv (h s hs), Bool.not_eq_true, Option.isSome_eq_false_iff,
    Option.isNone_iff_eq_none]

/-- It is stored in attributes that are taken from above the place. -/
theorem exists_slot_of_mem_toBackend_writeAt {e : String × Value}
    (he : e ∈ toBackend c (writeAt v place [])) :
    ∃ s ∈ slots c, s.place <+: place ∧ s.field = e.1 := by
  obtain ⟨s, hs, hentry⟩ := mem_entries_iff.1 (mem_entries_of_mem_toBackend he)
  refine ⟨s, hs, (Slot.isSome_entry_writeAt hs hplace hv (h s hs)).1 (by rw [hentry]; rfl), ?_⟩
  obtain ⟨w, -, rfl⟩ := Option.map_eq_some_iff.1 hentry
  rfl

end

end User

end ScimBridge
