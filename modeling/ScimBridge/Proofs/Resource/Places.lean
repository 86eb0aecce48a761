import ScimBridge.Proofs.Json.Fields
import ScimBridge.Resource.Path

/-!
# Reading and writing at places

A place is a list of names that leads through objects. Two places are apart where neither leads to
the other. A place is open where everything in front of it is an object or missing; what is written
there is read there (`at?_writeAt_self`), and what stands apart stays as it was
(`at?_writeAt_of_apart`). Writes keep a place open that they are not in front of
(`open_writeAt`).
-/

namespace ScimBridge

namespace Resource

/-- Neither place leads to the other one. -/
def Apart (p q : List String) : Prop := ¬ p <+: q ∧ ¬ q <+: p

instance (p q : List String) : Decidable (Apart p q) := inferInstanceAs (Decidable (_ ∧ _))

theorem Apart.symm {p q : List String} (h : Apart p q) : Apart q p := ⟨h.2, h.1⟩

theorem Apart.ne_nil {p q : List String} (h : Apart p q) : p ≠ [] :=
  fun hp => h.1 (hp ▸ List.nil_prefix)

theorem Apart.tail {name : String} {p q : List String} (h : Apart (name :: p) (name :: q)) :
    Apart p q :=
  ⟨fun hpq => h.1 (List.cons_prefix_cons.2 ⟨rfl, hpq⟩),
    fun hqp => h.2 (List.cons_prefix_cons.2 ⟨rfl, hqp⟩)⟩

theorem Apart.cons {p q : List String} (h : Apart p q) (name : String) :
    Apart (name :: p) (name :: q) :=
  ⟨fun hpq => h.1 (List.cons_prefix_cons.1 hpq).2, fun hqp => h.2 (List.cons_prefix_cons.1 hqp).2⟩

/-- Places that begin with different names are apart. -/
theorem apart_of_ne {name other : String} (h : name ≠ other) (p q : List String) :
    Apart (name :: p) (other :: q) :=
  ⟨fun hpq => h (List.cons_prefix_cons.1 hpq).1, fun hqp => h (List.cons_prefix_cons.1 hqp).1.symm⟩

section

variable {α : Type} [Nested α]

/-- The node at a place. -/
def at? : List String → Fields α → Option α
  | [], _ => none
  | [leaf], members => members.get? leaf
  | name :: next :: rest, members =>
    ((members.get? name).bind Nested.members?).bind (at? (next :: rest))

/-- Everything in front of a place is an object or missing. -/
def Open : List String → Fields α → Prop
  | name :: next :: rest, members => ∀ w, members.get? name = some w →
      ∃ inner, Nested.members? w = some inner ∧ Open (next :: rest) inner
  | _, _ => True

theorem at?_nil (p : List String) : at? p ([] : Fields α) = none := by
  rcases p with _ | ⟨name, _ | ⟨next, rest⟩⟩ <;> rfl

theorem open_nil (p : List String) : Open p ([] : Fields α) := by
  rcases p with _ | ⟨name, _ | ⟨next, rest⟩⟩
  · trivial
  · trivial
  · intro w hw
    cases hw

/-- The node at a place is found below its first name. -/
theorem at?_congr {name : String} {members members' : Fields α}
    (h : members.get? name = members'.get? name) (p : List String) :
    at? (name :: p) members = at? (name :: p) members' := by
  cases p with
  | nil => exact h
  | cons next rest => simp only [at?, h]

theorem open_congr {name : String} {members members' : Fields α}
    (h : members.get? name = members'.get? name) (p : List String) :
    Open (name :: p) members ↔ Open (name :: p) members' := by
  cases p with
  | nil => exact Iff.rfl
  | cons next rest => simp only [Open, h]

/-! ## Writing -/

variable (v : α) {p q : List String} {members : Fields α}

section Step

variable {name : String} {w : α} {inner : Fields α}

theorem writeAt_of_none (hw : members.get? name = none) (next : String) (rest : List String) :
    writeAt v (name :: next :: rest) members =
      members.put name (Nested.ofMembers (writeAt v (next :: rest) [])) := by
  rw [writeAt, hw]

variable (hw : members.get? name = some w)

include hw

theorem writeAt_of_some (hinner : Nested.members? w = some inner) (next : String)
    (rest : List String) :
    writeAt v (name :: next :: rest) members =
      members.put name (Nested.withMembers w (writeAt v (next :: rest) inner)) := by
  rw [writeAt, hw]
  simp only [hinner]

theorem writeAt_of_value (hinner : Nested.members? w = none) (next : String) (rest : List String) :
    writeAt v (name :: next :: rest) members = members := by
  rw [writeAt, hw]
  simp only [hinner]

end Step

/-- A write at an open place is a write into an object that is there, or is made. -/
theorem writeAt_of_open {name next : String} {rest : List String}
    (h : Open (name :: next :: rest) members) :
    ∃ inner node, Open (next :: rest) inner ∧
      Nested.members? node = some (writeAt v (next :: rest) inner) ∧
      writeAt v (name :: next :: rest) members = members.put name node := by
  cases hw : members.get? name with
  | none => exact ⟨[], _, open_nil _, Nested.members?_ofMembers _, writeAt_of_none v hw _ _⟩
  | some w =>
    obtain ⟨inner, hinner, hopen⟩ := h w hw
    exact ⟨inner, _, hopen, Nested.members?_withMembers hinner _, writeAt_of_some v hw hinner _ _⟩

/-- What is written at an open place is read there. -/
theorem at?_writeAt_self (hp : p ≠ []) (h : Open p members) :
    at? p (writeAt v p members) = some v := by
  induction p generalizing members with
  | nil => exact absurd rfl hp
  | cons name p ih =>
    cases p with
    | nil => exact Fields.get?_put_self _ _ _
    | cons next rest =>
      obtain ⟨inner, node, hopen, hnode, hwrite⟩ := writeAt_of_open v h
      rw [hwrite, at?, Fields.get?_put_self, Option.bind_some, hnode, Option.bind_some]
      exact ih (by simp) hopen

/-- A write is not seen at a place apart. -/
theorem at?_writeAt_of_apart (h : Apart p q) : at? q (writeAt v p members) = at? q members := by
  induction p generalizing q members with
  | nil => exact absurd rfl h.ne_nil
  | cons name p ih =>
    obtain ⟨other, q, rfl⟩ := List.exists_cons_of_ne_nil h.symm.ne_nil
    by_cases hname : other = name
    · subst hname
      have htail := h.tail
      obtain ⟨next, p, rfl⟩ := List.exists_cons_of_ne_nil htail.ne_nil
      obtain ⟨next', q, rfl⟩ := List.exists_cons_of_ne_nil htail.symm.ne_nil
      cases hw : members.get? other with
      | none =>
        rw [writeAt_of_none v hw, at?, Fields.get?_put_self, Option.bind_some,
          Nested.members?_ofMembers, Option.bind_some, ih htail, at?_nil, at?, hw]
        rfl
      | some w =>
        cases hinner : Nested.members? w with
        | none => rw [writeAt_of_value v hw hinner]
        | some inner =>
          rw [writeAt_of_some v hw hinner, at?, Fields.get?_put_self, Option.bind_some,
            Nested.members?_withMembers hinner, Option.bind_some, ih htail, at?, hw,
            Option.bind_some, hinner, Option.bind_some]
    · exact at?_congr (get?_writeAt_of_ne v p members hname) q

/-- A place stays open under writes at other places, unless they are in front of it. -/
theorem open_writeAt (h : Open q members) (hpq : p <+: q → p = q) :
    Open q (writeAt v p members) := by
  induction p generalizing q members with
  | nil => exact h
  | cons name p ih =>
    rcases q with _ | ⟨other, _ | ⟨next', q⟩⟩
    · trivial
    · trivial
    by_cases hname : other = name
    · subst hname
      have htail : p <+: next' :: q → p = next' :: q := fun hprefix =>
        (List.cons.inj (hpq (List.cons_prefix_cons.2 ⟨rfl, hprefix⟩))).2
      cases p with
      | nil => exact absurd (htail List.nil_prefix) (by simp)
      | cons next p =>
        cases hget : members.get? other with
        | none =>
          rw [writeAt_of_none v hget]
          intro w hw
          rw [Fields.get?_put_self, Option.some.injEq] at hw
          exact ⟨_, hw ▸ Nested.members?_ofMembers _, ih (open_nil _) htail⟩
        | some w' =>
          obtain ⟨inner, hinner, hopen⟩ := h w' hget
          rw [writeAt_of_some v hget hinner]
          intro w hw
          rw [Fields.get?_put_self, Option.some.injEq] at hw
          exact ⟨_, hw ▸ Nested.members?_withMembers hinner _, ih hopen htail⟩
    · exact (open_congr (get?_writeAt_of_ne v p members hname) _).2 h

/-- A name that holds an object, if anything, does so under writes below any name. -/
theorem object_writeAt {name : String} (hp : p ≠ [name])
    (h : ∀ w, members.get? name = some w → ∃ inner, w = Nested.ofMembers inner) {w : α}
    (hw : (writeAt v p members).get? name = some w) : ∃ inner, w = Nested.ofMembers inner := by
  rcases p with _ | ⟨first, _ | ⟨next, rest⟩⟩
  · exact h w hw
  · have hne : name ≠ first := by
      rintro rfl
      exact hp rfl
    rw [get?_writeAt_of_ne v [] members hne] at hw
    exact h w hw
  · by_cases hname : name = first
    · subst hname
      cases hget : members.get? name with
      | none =>
        rw [writeAt_of_none v hget, Fields.get?_put_self] at hw
        exact ⟨_, (Option.some.inj hw).symm⟩
      | some w' =>
        obtain ⟨inner, rfl⟩ := h w' hget
        rw [writeAt_of_some v hget (Nested.members?_ofMembers inner), Fields.get?_put_self,
          Nested.withMembers_ofMembers] at hw
        exact ⟨_, (Option.some.inj hw).symm⟩
    · rw [get?_writeAt_of_ne v _ members hname] at hw
      exact h w hw

end

/-! ## Values -/

/-- What is read at a place is the node there, or null. -/
theorem readAt_eq {names : List String} (hne : names ≠ []) (v : Value) :
    readAt names v = ((v.members?.bind (at? names)).getD .null) := by
  induction names generalizing v with
  | nil => exact absurd rfl hne
  | cons name names ih =>
    cases names with
    | nil => rfl
    | cons next rest =>
      rw [readAt, ih (by simp), Value.get?]
      cases v.members? with
      | none => rfl
      | some members =>
        simp only [Option.bind_some, at?]
        cases members.get? name with
        | none => rfl
        | some w => rfl

theorem readAt_object {names : List String} (hne : names ≠ []) (members : Fields Value) :
    readAt names (.object members) = (at? names members).getD .null :=
  readAt_eq hne _

end Resource

end ScimBridge
