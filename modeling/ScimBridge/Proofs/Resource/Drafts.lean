import ScimBridge.Proofs.Resource.Places
import ScimBridge.Resource.Draft

/-!
# Resources in the making and their values

The members of a draft have values, and a write at an open place of the draft is the same write
among the values (`expandMembers_writeAt`): an open place lies in no shared object
(`write_of_open`). As long as no object of an attribute has been written into, the place of an
attribute has the value of the attribute (`expand_place`) and its text (`text_place`).
-/

namespace ScimBridge

open Resource

namespace Draft

variable {look : String → Option Value} {drafts : Fields Draft} {values : Fields Value}

theorem expandMembers_cons {name : String} {d : Draft} {v : Value} (hd : d.expand look = some v)
    (h : expandMembers look drafts = some values) :
    expandMembers look ((name, d) :: drafts) = some ((name, v) :: values) := by
  simp [expandMembers, hd, h]

theorem exists_of_expandMembers_cons {name : String} {d : Draft}
    (h : expandMembers look ((name, d) :: drafts) = some values) :
    ∃ v rest, d.expand look = some v ∧ expandMembers look drafts = some rest ∧
      values = (name, v) :: rest := by
  simp only [expandMembers, Option.bind_eq_bind, Option.bind_eq_some_iff, Option.pure_def,
    Option.some.injEq] at h
  obtain ⟨v, hv, rest, hrest, rfl⟩ := h
  exact ⟨v, rest, hv, hrest, rfl⟩

/-- A name has the value of its node. -/
theorem get?_expandMembers (h : expandMembers look drafts = some values) (name : String) :
    values.get? name = (drafts.get? name).bind (expand look) := by
  induction drafts generalizing values with
  | nil =>
    cases h
    rfl
  | cons p rest ih =>
    obtain ⟨v, values, hv, hrest, rfl⟩ := exists_of_expandMembers_cons h
    rw [Fields.get?_cons, Fields.get?_cons, ih hrest]
    split
    · exact hv.symm
    · rfl

/-- Where all members have values, each has one. -/
theorem expand_of_get? (h : expandMembers look drafts = some values) {name : String} {d : Draft}
    (hd : drafts.get? name = some d) : ∃ v, d.expand look = some v ∧ values.get? name = some v := by
  induction drafts generalizing values with
  | nil => cases hd
  | cons p rest ih =>
    obtain ⟨v, values, hv, hrest, rfl⟩ := exists_of_expandMembers_cons h
    rw [Fields.get?_cons] at hd ⊢
    split at hd
    · rename_i hname
      cases hd
      exact ⟨v, hv, if_pos hname⟩
    · rename_i hname
      obtain ⟨w, hw, hget⟩ := ih hrest hd
      exact ⟨w, hw, (if_neg hname).trans hget⟩

theorem expandMembers_put {d : Draft} {v : Value} (hd : d.expand look = some v)
    (h : expandMembers look drafts = some values) (name : String) :
    expandMembers look (drafts.put name d) = some (values.put name v) := by
  induction drafts generalizing values with
  | nil =>
    cases h
    exact expandMembers_cons hd rfl
  | cons p rest ih =>
    obtain ⟨w, values, hw, hrest, rfl⟩ := exists_of_expandMembers_cons h
    rw [Fields.put, Fields.put]
    split
    · exact expandMembers_cons hd hrest
    · exact expandMembers_cons hw (ih hrest)

/-- Writing at an open place of a draft is writing there among its values. -/
theorem expandMembers_writeAt {d : Draft} {v : Value} (hd : d.expand look = some v)
    {names : List String} (ho : Open names drafts) (h : expandMembers look drafts = some values) :
    expandMembers look (writeAt d names drafts) = some (writeAt v names values) := by
  induction names generalizing drafts values with
  | nil => exact h
  | cons name names ih =>
    cases names with
    | nil => exact expandMembers_put hd h name
    | cons next rest =>
      rw [writeAt, writeAt]
      cases hw : drafts.get? name with
      | none =>
        have hget : values.get? name = none := by rw [get?_expandMembers h, hw, Option.bind_none]
        have hinner : expandMembers look (writeAt d (next :: rest) [])
            = some (writeAt v (next :: rest) []) := ih (open_nil _) rfl
        rw [hget]
        exact expandMembers_put (by simp [expand, Nested.ofMembers, hinner]) h name
      | some w =>
        obtain ⟨inner, hinner, hopen⟩ := ho w hw
        obtain ⟨v', hv', hget⟩ := expand_of_get? h hw
        rw [eq_object_of_members? hinner] at hv'
        obtain ⟨innerValues, hvalues, rfl⟩ := Option.map_eq_some_iff.1 hv'
        simp only [hinner, hget]
        refine expandMembers_put ?_ h name
        simp [expand, Nested.withMembers, Value.withMembers, ih hopen hvalues]

/-- The values of an open draft have an object wherever the draft has one. -/
theorem open_expandMembers {names : List String} (ho : Open names drafts)
    (h : expandMembers look drafts = some values) : Open names values := by
  induction names generalizing drafts values with
  | nil => trivial
  | cons name names ih =>
    cases names with
    | nil => trivial
    | cons next rest =>
      intro v hv
      rw [get?_expandMembers h] at hv
      obtain ⟨d, hd, hv⟩ := Option.bind_eq_some_iff.1 hv
      obtain ⟨inner, hinner, hopen⟩ := ho d hd
      rw [eq_object_of_members? hinner] at hv
      obtain ⟨innerValues, hvalues, rfl⟩ := Option.map_eq_some_iff.1 hv
      exact ⟨innerValues, rfl, ih hopen hvalues⟩

/-- What stands at an open place has the value of its node. -/
theorem at?_expandMembers {names : List String} (ho : Open names drafts)
    (h : expandMembers look drafts = some values) :
    at? names values = (at? names drafts).bind (expand look) := by
  induction names generalizing drafts values with
  | nil => rfl
  | cons name names ih =>
    cases names with
    | nil => exact get?_expandMembers h name
    | cons next rest =>
      cases hd : drafts.get? name with
      | none => simp [at?, get?_expandMembers h, hd]
      | some d =>
        obtain ⟨inner, hinner, hopen⟩ := ho d hd
        obtain ⟨v, hv, hget⟩ := expand_of_get? h hd
        rw [eq_object_of_members? hinner] at hv
        obtain ⟨innerValues, hvalues, rfl⟩ := Option.map_eq_some_iff.1 hv
        simp only [at?, hget, hd, hinner, Option.bind_some]
        exact ih hopen hvalues

/-- A draft has values where each of its members has one. -/
theorem exists_expandMembers (h : ∀ p ∈ drafts, ∃ v, p.2.expand look = some v) :
    ∃ values, expandMembers look drafts = some values := by
  induction drafts with
  | nil => exact ⟨[], rfl⟩
  | cons p rest ih =>
    obtain ⟨v, hv⟩ := h p List.mem_cons_self
    obtain ⟨values, hvalues⟩ := ih fun q hq => h q (List.mem_cons_of_mem _ hq)
    exact ⟨_, expandMembers_cons hv hvalues⟩

end Draft

namespace Making

variable {m : Making}

theorem follow_of_open {shared : Fields (Fields Draft)} {names : List String}
    {members : Fields Draft} (h : Open names members) (behind : List String) :
    (follow shared names none behind members).origin = none := by
  induction names generalizing behind members with
  | nil => rfl
  | cons name names ih =>
    cases names with
    | nil => rfl
    | cons next rest =>
      unfold follow
      split
      · rename_i hw
        obtain ⟨inner, hinner, -⟩ := h _ hw
        cases hinner
      · rename_i hw
        obtain ⟨inner, hinner, hopen⟩ := h _ hw
        cases hinner
        exact ih hopen _
      · rfl

/-- A write at an open place lies in no shared object. -/
theorem write_of_open {names : List String} (h : Open names m.resource) (d : Draft) :
    m.write names d = { m with resource := writeAt d names m.resource } :=
  write_of_follow m names d (follow_of_open h [])

/-- A write is seen in the resource only below the first name of its path. -/
theorem get?_write_of_ne {name first : String} (h : name ≠ first) (rest : List String) (d : Draft) :
    (m.write (first :: rest) d).resource.get? name = m.resource.get? name := by
  unfold write
  extract_lets place
  split
  · rename_i horigin
    rw [names_follow m.shared (first :: rest) [] m.resource horigin]
    exact get?_writeAt_of_ne d rest m.resource h
  · rfl

theorem get?_write_self (name : String) (d : Draft) :
    (m.write [name] d).resource.get? name = some d :=
  Fields.get?_put_self m.resource name d

/-! ## Objects that have not been written into -/

variable {origin : String} {members : Fields Value}

theorem look?_of_get? (h : m.shared.get? origin = some (Draft.ofMembers members)) :
    m.look? origin = some (.object members) := by
  obtain ⟨p, rest, hshared⟩ : ∃ p rest, m.shared = p :: rest := by
    cases hs : m.shared with
    | nil => rw [hs] at h; cases h
    | cons p rest => exact ⟨p, rest, rfl⟩
  unfold look?
  rw [hshared, List.length_cons, ← hshared]
  simp only [sharedValue?, h, Option.bind_eq_bind, Option.bind_some,
    Draft.expandMembers_ofMembers, Option.pure_def]

/-- The place of an attribute has its value. -/
theorem expand_place {v : Value}
    (h : ∀ members, v = .object members → m.shared.get? origin = some (Draft.ofMembers members)) :
    (Draft.place origin v).expand m.look? = some v := by
  cases v with
  | object members => exact look?_of_get? (h members rfl)
  | _ => rfl

/-- The place of an attribute has its text. -/
theorem text_place {v : Value}
    (h : ∀ members, v = .object members → m.shared.get? origin = some (Draft.ofMembers members)) :
    m.text (Draft.place origin v) = v.shown := by
  cases v with
  | object members =>
    have hexpand : Draft.expand (fun _ => none) (.object (Draft.ofMembers members))
        = some (.object members) := by
      simp [Draft.expand, Draft.expandMembers_ofMembers]
    simp only [text, Draft.place, Draft.shown, Draft.inner, sharedText, List.contains_nil,
      Bool.false_eq_true, if_false, h members rfl, Option.getD_some]
    exact Draft.inner_of_expand (fun _ _ hnone => by cases hnone) hexpand
  | _ => rfl

theorem value_ofValue (v : Value) : m.value (Draft.ofValue v) = .ok v := by
  simp only [value, Draft.expand_ofValue]

/-- The members of an object have their values, one after the other. -/
theorem mapM_ofMembers (keep : String → Bool) (members : Fields Value) :
    ((Draft.ofMembers members).filter fun p => keep p.1).mapM
      (fun p => do return (p.1, ← m.value p.2)) = .ok (members.filter fun p => keep p.1) := by
  induction members with
  | nil => rfl
  | cons p rest ih =>
    rw [Draft.ofMembers, List.filter_cons, List.filter_cons]
    split
    · rw [List.mapM_cons, ih, value_ofValue]
      rfl
    · exact ih

/-- The objects among attributes stand under the names of the attributes. -/
theorem get?_sharedOf (attributes : Fields Value) (origin : String) :
    (sharedOf attributes).get? origin
      = ((attributes.get? origin).bind Value.members?).map Draft.ofMembers := by
  rw [sharedOf, Fields.get?_filterMap fun name =>
    ((attributes.get? name).bind Value.members?).map Draft.ofMembers]
  split
  · rfl
  · rename_i hkey
    rw [Fields.get?_eq_none_iff.2 hkey]
    rfl

end Making

end ScimBridge
