import ScimBridge.Proofs.Mapping.Places

/-!
# Reading and writing at dotted paths

What is written at a path is read there, unless something that is not an object stands in front of
the path; then nothing is written, not even an object on the way. What stands at a path apart is
read as before, and two writes at paths apart from each other may be swapped but for the order of
members (`write_lens`).

1. `open_or_blocked`, `writeAt_of_blocked`: the two situations in front of a path, and that a write
   leaves a resource alone in the second one.
2. `Reordered`: the same but for the order of members. It goes up through the objects on a path
   (`Reordered.put`).
3. `reordered_writeAt`: by induction along the common front of two paths; where they part, the
   writes store under different names.
-/

namespace ScimBridge

namespace Resource

/-! ## Something in the way -/

/-- Something that is not an object stands in front of a place. -/
def Blocked (p : List String) (members : Fields Value) : Prop :=
  ∃ q w, q <+: p ∧ q ≠ p ∧ at? q members = some w ∧ w.members? = none

section Blocked

variable {name : String} {p : List String} {members inner : Fields Value} {w : Value}

/-- What is in the way below an object is in the way. -/
theorem Blocked.below (hw : members.get? name = some w) (hinner : w.members? = some inner)
    (h : Blocked p inner) : Blocked (name :: p) members := by
  obtain ⟨q, x, hprefix, hne, hx, hnone⟩ := h
  refine ⟨name :: q, x, List.cons_prefix_cons.2 ⟨rfl, hprefix⟩, by simpa using hne, ?_, hnone⟩
  cases q with
  | nil => cases hx
  | cons next q =>
    have hmembers : Nested.members? w = some inner := hinner
    rw [at?, hw, Option.bind_some, hmembers, Option.bind_some, hx]

theorem open_or_blocked (p : List String) (members : Fields Value) :
    Open p members ∨ Blocked p members := by
  induction p generalizing members with
  | nil => exact .inl trivial
  | cons name p ih =>
    cases p with
    | nil => exact .inl trivial
    | cons next rest =>
      cases hw : members.get? name with
      | none => exact .inl fun w hw' => nomatch hw.symm.trans hw'
      | some w =>
        cases hinner : w.members? with
        | none =>
          exact .inr ⟨[name], w, List.cons_prefix_cons.2 ⟨rfl, List.nil_prefix⟩, by simp, hw, hinner⟩
        | some inner =>
          rcases ih inner with h | h
          · refine .inl fun w' hw' => ?_
            cases hw.symm.trans hw'
            exact ⟨inner, hinner, h⟩
          · exact .inr (h.below hw hinner)

/-- Where something is in the way, nothing is written. -/
theorem writeAt_of_blocked (v : Value) (h : Blocked p members) : writeAt v p members = members := by
  induction p generalizing members with
  | nil => rfl
  | cons name p ih =>
    obtain ⟨q, x, hprefix, hne, hx, hnone⟩ := h
    rcases q with _ | ⟨name', q⟩
    · cases hx
    obtain ⟨rfl, htail⟩ := List.cons_prefix_cons.1 hprefix
    have hp : p ≠ [] := by
      rintro rfl
      exact hne (congrArg _ (List.prefix_nil.1 htail))
    obtain ⟨next, rest, rfl⟩ := List.exists_cons_of_ne_nil hp
    cases q with
    | nil => exact writeAt_of_value v hx hnone next rest
    | cons next' q =>
      rw [at?] at hx
      obtain ⟨inner, hinner, hx⟩ := Option.bind_eq_some_iff.1 hx
      obtain ⟨w, hw, hinner⟩ := Option.bind_eq_some_iff.1 hinner
      have hblocked : Blocked (next :: rest) inner :=
        ⟨next' :: q, x, htail, fun he => hne (congrArg _ he), hx, hnone⟩
      rw [writeAt_of_some v hw hinner, ih hblocked, Nested.withMembers_self hinner,
        Fields.put_of_get? hw]

end Blocked

/-! ## The same but for the order -/

/-- The same members but for their order, or but for the order in an object below. -/
inductive Reordered : Fields Value → Fields Value → Prop
  | perm {members members' : Fields Value} : members.Perm members' → Reordered members members'
  | inside {inner inner' : Fields Value} (name : String) (w : Value) (rest : Fields Value) :
      Reordered inner inner' →
      Reordered ((name, w.withMembers inner) :: rest) ((name, w.withMembers inner') :: rest)
  | trans {a b c : Fields Value} : Reordered a b → Reordered b c → Reordered a c

namespace Reordered

variable {members members' inner inner' : Fields Value}

theorem refl (members : Fields Value) : Reordered members members := .perm (.refl _)

theorem cons (p : String × Value) (h : Reordered members members') :
    Reordered (p :: members) (p :: members') := by
  induction h with
  | perm h => exact .perm (h.cons p)
  | inside name w rest h _ =>
    exact (perm (.swap _ _ _)).trans ((inside name w (p :: rest) h).trans (perm (.swap _ _ _)))
  | trans _ _ ih ih' => exact ih.trans ih'

/-- Objects that differ in their order may be stored for each other. -/
theorem put (h : Reordered inner inner') (members : Fields Value) (name : String) (w : Value) :
    Reordered (members.put name (w.withMembers inner)) (members.put name (w.withMembers inner')) := by
  induction members with
  | nil => exact inside name w [] h
  | cons p members ih =>
    obtain ⟨k, x⟩ := p
    unfold Fields.put
    split
    · exact inside k w members h
    · exact ih.cons (k, x)

end Reordered

/-! ## Two writes -/

section Writes

variable (v : Value) {p q : List String} {name : String} {members : Fields Value}

/-- What a write stores depends on what stands under the first name of its path. -/
theorem exists_put (name : String) (rest : List String) (w? : Option Value) :
    (∀ members : Fields Value, members.get? name = w? →
      writeAt v (name :: rest) members = members) ∨
    ∃ x, ∀ members : Fields Value, members.get? name = w? →
      writeAt v (name :: rest) members = members.put name x := by
  cases rest with
  | nil => exact .inr ⟨v, fun _ _ => rfl⟩
  | cons next rest =>
    cases w? with
    | none => exact .inr ⟨_, fun members hw => writeAt_of_none v hw next rest⟩
    | some w =>
      cases hinner : Nested.members? w with
      | none => exact .inl fun members hw => writeAt_of_value v hw hinner next rest
      | some inner => exact .inr ⟨_, fun members hw => writeAt_of_some v hw hinner next rest⟩

theorem length_le_length_writeAt (p : List String) (members : Fields Value) :
    members.length ≤ (writeAt v p members).length := by
  cases p with
  | nil => exact Nat.le_refl _
  | cons name rest =>
    rcases exists_put v name rest (members.get? name) with h | ⟨x, h⟩ <;> rw [h members rfl]
    exact Fields.length_le_length_put _ _ _

/-- All writes below one name go into the object that stands there, or they are all in vain. -/
theorem writeAt_below (name : String) (members : Fields Value) :
    (∃ (w : Value) (inner : Fields Value), w.members? = some inner ∧
      ∀ v next rest, writeAt v (name :: next :: rest) members =
        members.put name (w.withMembers (writeAt v (next :: rest) inner))) ∨
    ∀ v next rest, writeAt v (name :: next :: rest) members = members := by
  cases hw : members.get? name with
  | none => exact .inl ⟨.object [], [], rfl, fun v => writeAt_of_none v hw⟩
  | some w =>
    cases hinner : w.members? with
    | none => exact .inr fun v => writeAt_of_value v hw hinner
    | some inner => exact .inl ⟨w, inner, hinner, fun v => writeAt_of_some v hw hinner⟩

/-- A further write below a name goes on with the object that is stored there. -/
theorem writeAt_put {w : Value} {inner more : Fields Value} (hinner : w.members? = some inner)
    (hmore : inner.length ≤ more.length) (next : String) (rest : List String) :
    writeAt v (name :: next :: rest) (members.put name (w.withMembers more)) =
      members.put name (w.withMembers (writeAt v (next :: rest) more)) := by
  have hmembers := Value.members?_withMembers hinner more
  rw [writeAt_of_some v (Fields.get?_put_self members name _) hmembers, Fields.put_put_self]
  exact congrArg (members.put name) (Value.withMembers_withMembers hinner hmore _)

/-- Writes at places apart may be swapped. -/
theorem reordered_writeAt (w : Value) (h : Apart p q) (members : Fields Value) :
    Reordered (writeAt w q (writeAt v p members)) (writeAt v p (writeAt w q members)) := by
  induction p generalizing q members with
  | nil => exact absurd rfl h.ne_nil
  | cons name p ih =>
    obtain ⟨other, q, rfl⟩ := List.exists_cons_of_ne_nil h.symm.ne_nil
    by_cases hname : name = other
    · subst hname
      have htail := h.tail
      obtain ⟨next, p, rfl⟩ := List.exists_cons_of_ne_nil htail.ne_nil
      obtain ⟨next', q, rfl⟩ := List.exists_cons_of_ne_nil htail.symm.ne_nil
      rcases writeAt_below name members with ⟨node, inner, hinner, hwrite⟩ | hkeep
      · rw [hwrite v, hwrite w, writeAt_put w hinner (length_le_length_writeAt v _ _),
          writeAt_put v hinner (length_le_length_writeAt w _ _)]
        exact (ih htail inner).put members name node
      · rw [hkeep v, hkeep w, hkeep v]
        exact .refl _
    -- neither write changes what stands under the first name of the other one
    · have hv := get?_writeAt_of_ne v p members (Ne.symm hname)
      have hw := get?_writeAt_of_ne w q members hname
      rcases exists_put v name p (members.get? name) with hp | ⟨x, hp⟩
      · rw [hp members rfl, hp _ hw]
        exact .refl _
      · rw [hp members rfl] at hv ⊢
        rw [hp _ hw]
        rcases exists_put w other q (members.get? other) with hq | ⟨y, hq⟩
        · rw [hq members rfl, hq _ hv]
          exact .refl _
        · rw [hq members rfl, hq _ hv]
          exact .perm (Fields.put_put_perm members hname x y)

end Writes

/-! ## Dotted paths -/

/-- **Reading and writing at dotted paths.** Either what is written is read again, or something that
is not an object stands in front of the path and the resource is as before. What is read at a path
apart is as before, and writes at paths apart may be swapped but for the order of members. -/
theorem write_lens (resource : Fields Value) (path : String) (v : Value) :
    ((¬ Blocked (segments path) resource ∧ read (.object (write resource path v)) path = v) ∨
      (Blocked (segments path) resource ∧ write resource path v = resource)) ∧
    (∀ other, Apart (segments path) (segments other) →
      read (.object (write resource path v)) other = read (.object resource) other) ∧
    ∀ other w, Apart (segments path) (segments other) →
      Reordered (write (write resource path v) other w) (write (write resource other w) path v) := by
  refine ⟨?_, fun other h => ?_, fun other w h => reordered_writeAt v w h resource⟩
  · by_cases hblocked : Blocked (segments path) resource
    · exact .inr ⟨hblocked, writeAt_of_blocked v hblocked⟩
    · have hopen := (open_or_blocked _ _).resolve_right hblocked
      have hat : at? (segments path) (write resource path v) = some v :=
        at?_writeAt_self v (segments_ne_nil path) hopen
      refine .inl ⟨hblocked, ?_⟩
      rw [read, readAt_object (segments_ne_nil path), hat]
      rfl
  · have hat : at? (segments other) (write resource path v) = at? (segments other) resource :=
      at?_writeAt_of_apart v h
    rw [read, read, readAt_object (segments_ne_nil other), readAt_object (segments_ne_nil other), hat]

/-- A title has no parts, and neither part of a name that is written first is in the way of the
other. -/
theorem write_lens_of_names :
    let resource : Fields Value := [("title", .string "Dr")]
    write resource "title.short" (.string "D") = resource ∧
    read (.object (write resource "name.givenName" (.string "Jo"))) "title" = .string "Dr" ∧
    Reordered
      (write (write resource "name.givenName" (.string "Jo")) "name.familyName" (.string "Doe"))
      (write (write resource "name.familyName" (.string "Doe")) "name.givenName" (.string "Jo")) := by
  intro resource
  have hblocked : Blocked (segments "title.short") resource :=
    ⟨["title"], .string "Dr", by decide +kernel, by decide +kernel, rfl, rfl⟩
  have hkept := (write_lens resource "title.short" (.string "D")).1.resolve_left
    fun h => h.1 hblocked
  obtain ⟨-, hread, hswap⟩ := write_lens resource "name.givenName" (.string "Jo")
  refine ⟨hkept.2, (hread "title" (by decide +kernel)).trans rfl, ?_⟩
  exact hswap "name.familyName" (.string "Doe") (by decide +kernel)

end Resource

end ScimBridge
