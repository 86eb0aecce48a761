import ScimBridge.Proofs.Backend.Server

/-!
# Exchanges of one request at most

`Exchange.Brief D P Q x` says that `x` comes to its end without a request, with a result in `D`, or
with the answer to its only request: that request is in `P`, and the result fits the answer by `Q`.
For operations `BriefIn E P Q x s` says in addition that errors are in `E` and that there is no
result without a request. Steps that send nothing may stand in front (`BriefIn.after`) and behind
(`BriefIn.bind`).
-/

namespace ScimBridge

namespace Backend

namespace Exchange

variable {α β : Type} {D : α → Prop} {P : Request → Prop} {Q : Answer → α → Prop}

/-- An exchange of one request at most. -/
def Brief (D : α → Prop) (P : Request → Prop) (Q : Answer → α → Prop) : Exchange α → Prop
  | .done a => D a
  | .call request next => P request ∧ ∀ answer, ∃ a, next answer = .done a ∧ Q answer a

theorem Brief.bind {x : Exchange α} (h : x.Brief D P Q) {f : α → Exchange β} {D' : β → Prop}
    {Q' : Answer → β → Prop} (hunsent : ∀ a, D a → (f a).Brief D' P Q')
    (hsent : ∀ answer a, Q answer a → ∃ b, f a = .done b ∧ Q' answer b) :
    (x >>= f).Brief D' P Q' := by
  cases x with
  | done a => exact hunsent a h
  | call request next =>
    refine ⟨h.1, fun answer => ?_⟩
    obtain ⟨a, hnext, hQ⟩ := h.2 answer
    obtain ⟨b, hb, hQ'⟩ := hsent answer a hQ
    refine ⟨b, ?_, hQ'⟩
    show (next answer >>= f) = .done b
    rw [hnext, done_bind_eq, hb]

theorem Brief.mono {x : Exchange α} (h : x.Brief D P Q) {D' : α → Prop} {Q' : Answer → α → Prop}
    (hD : ∀ a, D a → D' a) (hQ : ∀ answer a, Q answer a → Q' answer a) : x.Brief D' P Q' := by
  cases x with
  | done a => exact hD a h
  | call request next =>
    refine ⟨h.1, fun answer => ?_⟩
    obtain ⟨a, hnext, hfits⟩ := h.2 answer
    exact ⟨a, hnext, hQ answer a hfits⟩

/-- With a server whose answer makes a difference, the request is sent. -/
theorem Brief.exists_call {x : Exchange α} (h : x.Brief D P Q) {server : Server}
    (hD : ¬D (x.against server)) :
    ∃ request next, x = .call request next ∧ P request ∧
      next (server request) = .done (x.against server) := by
  cases x with
  | done a => exact (hD h).elim
  | call request next =>
    obtain ⟨a, hnext, -⟩ := h.2 (server request)
    refine ⟨request, next, rfl, h.1, ?_⟩
    rw [against, hnext]
    rfl

end Exchange

/-! ## Operations -/

section

variable {ε σ α β : Type}

/-- The error is in one set, the result in another. -/
def Fits (E : ε → Prop) (Q : α → Prop) : Except ε α → Prop
  | .ok a => Q a
  | .error e => E e

variable {E : ε → Prop} {P : Request → Prop} {Q : Answer → α → Prop}
  {x : ExceptT ε (StateT σ Exchange) α} {s s' : σ}

/-- An operation that sends one request at most. There is no result without a request. -/
def BriefIn (E : ε → Prop) (P : Request → Prop) (Q : Answer → α → Prop)
    (x : ExceptT ε (StateT σ Exchange) α) (s : σ) : Prop :=
  (startedIn x s).Brief (fun p => Fits E (fun _ => False) p.1) P fun answer p =>
    Fits E (Q answer) p.1

namespace BriefIn

theorem of_once {request : Request} {f : Answer → Except ε α}
    (h : startedIn x s = .once request fun answer => (f answer, s)) (hP : P request)
    (hf : ∀ answer, Fits E (Q answer) (f answer)) : BriefIn E P Q x s := by
  unfold BriefIn
  rw [h]
  exact ⟨hP, fun answer => ⟨_, rfl, hf answer⟩⟩

/-- A step in front that sends nothing. -/
theorem after {x : ExceptT ε (StateT σ Exchange) β} {outcome : Except ε β}
    (hx : startedIn x s = .done (outcome, s')) (hE : ∀ e, outcome = .error e → E e)
    {f : β → ExceptT ε (StateT σ Exchange) α}
    (hf : ∀ b, outcome = .ok b → BriefIn E P Q (f b) s') : BriefIn E P Q (x >>= f) s := by
  unfold BriefIn
  rw [startedIn_bind, hx, Exchange.done_bind_eq]
  cases outcome with
  | ok b => exact hf b rfl
  | error e => exact hE e rfl

/-- A step behind that sends nothing. -/
theorem bind (h : BriefIn E P Q x s) {f : α → ExceptT ε (StateT σ Exchange) β}
    {Q' : Answer → β → Prop}
    (hf : ∀ answer a s', Q answer a →
      ∃ p, startedIn (f a) s' = .done p ∧ Fits E (Q' answer) p.1) :
    BriefIn E P Q' (x >>= f) s := by
  unfold BriefIn at h ⊢
  rw [startedIn_bind]
  refine h.bind ?_ ?_
  · rintro ⟨outcome, s'⟩ hunsent
    cases outcome with
    | ok a => exact hunsent.elim
    | error e => exact hunsent
  · rintro answer ⟨outcome, s'⟩ hfits
    cases outcome with
    | ok a => exact hf answer a s' hfits
    | error e => exact ⟨_, rfl, hfits⟩

end BriefIn

end

end Backend

end ScimBridge
