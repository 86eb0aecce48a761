import Mathlib.Data.List.Forall2

/-!
# Outcomes

Steps that may fail: what a sequence of them, or one for each item of a list, comes to.
-/

namespace ScimBridge

section

variable {ε ε' α β : Type} {x : Except ε α}

/-- There is a result or an error. -/
theorem ok_or_error (x : Except ε α) : (∃ a, x = .ok a) ∨ ∃ e, x = .error e := by
  cases x with
  | ok a => exact .inl ⟨a, rfl⟩
  | error e => exact .inr ⟨e, rfl⟩

/-- Two steps have a result iff the first has one and the second has one for it. -/
theorem bind_eq_ok_iff {f : α → Except ε β} {b : β} :
    (x >>= f) = .ok b ↔ ∃ a, x = .ok a ∧ f a = .ok b := by
  cases x <;> simp [bind, Except.bind]

theorem map_eq_ok_iff {g : α → β} {b : β} : x.map g = .ok b ↔ ∃ a, x = .ok a ∧ g a = b := by
  cases x <;> simp [Except.map]

theorem map_eq_error_iff {g : α → β} {e : ε} : x.map g = .error e ↔ x = .error e := by
  cases x <;> simp [Except.map]

theorem mapError_eq_ok_iff {g : ε → ε'} {a : α} : x.mapError g = .ok a ↔ x = .ok a := by
  cases x <;> simp [Except.mapError]

theorem mapError_eq_error_iff {g : ε → ε'} {e : ε'} :
    x.mapError g = .error e ↔ ∃ e', x = .error e' ∧ g e' = e := by
  cases x <;> simp [Except.mapError]

theorem mapError_map (g : ε → ε') (f : α → β) : (x.map f).mapError g = (x.mapError g).map f := by
  cases x <;> rfl

theorem eq_ok_of_toOption {a : α} (h : x.toOption = some a) : x = .ok a := by
  cases x <;> cases h
  rfl

theorem ne_ok_of_toOption (h : x.toOption = none) (a : α) : x ≠ .ok a := by
  rintro rfl
  cases h

/-- The error of an outcome, where there is one. -/
def error? : Except ε α → Option ε
  | .ok _ => none
  | .error e => some e

theorem eq_error_of_error? {e : ε} (h : error? x = some e) : x = .error e := by
  cases x <;> cases h
  rfl

end

section Traversal

variable {ε α β : Type} {f : α → Except ε β} {as : List α}

/-- A list is gone through iff every item is. -/
theorem mapM_eq_ok_iff {bs : List β} :
    as.mapM f = .ok bs ↔ List.Forall₂ (fun a b => f a = .ok b) as bs := by
  induction as generalizing bs with
  | nil => cases bs <;> simp [pure, Except.pure]
  | cons a as ih =>
    rw [List.mapM_cons, List.forall₂_cons_left_iff]
    simp only [bind_eq_ok_iff, ih, pure, Except.pure, Except.ok.injEq, eq_comm (b := bs),
      exists_and_left]

/-- Some item stops the list, or there is a result. -/
theorem mapM_fails_iff : (∃ e, as.mapM f = .error e) ↔ ∃ a ∈ as, ∃ e, f a = .error e := by
  induction as with
  | nil => simp [pure, Except.pure]
  | cons a as ih =>
    rw [List.mapM_cons, List.exists_mem_cons_iff, ← ih]
    cases ha : f a with
    | error e => simp [bind, Except.bind]
    | ok b => cases as.mapM f <;> simp [bind, Except.bind, pure, Except.pure]

end Traversal

end ScimBridge
