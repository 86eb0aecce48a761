import ScimBridge.Backend.Exchange

/-!
# What an exchange guarantees

`Exchange.Ensures P Q x` says that every request that `x` can come to send has the property `P`,
and every result that it can come to has the property `Q`, whatever the answers are. It holds of a
composition iff it holds step by step (`ensures_bind`), and it holds of whatever is played
(`Ensures.calls`, `Ensures.result`).

Operations that may fail and may change a state are exchanges once they are begun in a state
(`startedIn`); the equations for their parts turn a begun operation into the tree of its requests.
-/

namespace ScimBridge

namespace Backend

namespace Exchange

variable {α β : Type}

@[simp] theorem done_bind_eq (a : α) (f : α → Exchange β) : (done a >>= f) = f a := rfl

@[simp] theorem call_bind_eq (request : Request) (next : Answer → Exchange α)
    (f : α → Exchange β) :
    (call request next >>= f) = call request fun answer => next answer >>= f := rfl

/-! ## Guarantees -/

/-- All requests have one property and all results another one. -/
def Ensures (P : Request → Prop) (Q : α → Prop) : Exchange α → Prop
  | .done a => Q a
  | .call request next => P request ∧ ∀ answer, Ensures P Q (next answer)

variable {P : Request → Prop} {Q R : α → Prop}

theorem ensures_bind {x : Exchange α} {f : α → Exchange β} {Q : β → Prop} :
    (x >>= f).Ensures P Q ↔ x.Ensures P fun a => (f a).Ensures P Q := by
  induction x with
  | done a => exact Iff.rfl
  | call request next ih => exact and_congr_right fun _ => forall_congr' ih

theorem Ensures.mono {x : Exchange α} (h : x.Ensures P Q) (hQ : ∀ a, Q a → R a) :
    x.Ensures P R := by
  induction x with
  | done a => exact hQ a h
  | call request next ih => exact ⟨h.1, fun answer => ih answer (h.2 answer)⟩

theorem ensures_true (x : Exchange α) : x.Ensures (fun _ => True) fun _ => True := by
  induction x with
  | done a => trivial
  | call r next ih => exact ⟨trivial, ih⟩

/-- Every request that is sent has the property. -/
theorem Ensures.calls {x : Exchange α} (h : x.Ensures P Q) (script : List Answer) :
    ∀ r ∈ (x.play script).calls, P r := by
  induction x generalizing script with
  | done a => simp [play]
  | call request next ih =>
    cases script with
    | nil =>
      simp only [play, List.mem_cons, forall_eq_or_imp]
      exact ⟨h.1, ih noAnswer (h.2 noAnswer) []⟩
    | cons answer script =>
      simp only [play, List.mem_cons, forall_eq_or_imp]
      exact ⟨h.1, ih answer (h.2 answer) script⟩

/-- The result has the property. -/
theorem Ensures.result {x : Exchange α} (h : x.Ensures P Q) (script : List Answer) :
    Q (x.play script).result := by
  induction x generalizing script with
  | done a => exact h
  | call request next ih =>
    cases script with
    | nil => exact ih noAnswer (h.2 noAnswer) []
    | cons answer script => exact ih answer (h.2 answer) script

/-- What holds of everything that is played is guaranteed. -/
theorem ensures_of_play {x : Exchange α}
    (h : ∀ script, (∀ r ∈ (x.play script).calls, P r) ∧ Q (x.play script).result) :
    x.Ensures P Q := by
  induction x with
  | done a => exact (h []).2
  | call request next ih =>
    refine ⟨(h []).1 request (by simp [play]), fun answer => ih answer fun script => ?_⟩
    obtain ⟨hcalls, hresult⟩ := h (answer :: script)
    exact ⟨fun r hr => hcalls r (List.mem_cons_of_mem _ hr), hresult⟩

/-- What is behind a composition goes on with the first result and the unused answers. -/
theorem result_bind (x : Exchange α) (f : α → Exchange β) (script : List Answer) :
    ((x >>= f).play script).result =
      ((f (x.play script).result).play (x.play script).unused).result := by
  show ((x.bind f).play script).result = _
  rw [play_bind]

/-! ## One request -/

/-- Send one request and make something of the answer. -/
def once (request : Request) (f : Answer → α) : Exchange α :=
  .call request fun answer => .done (f answer)

/-- The answer that a script gives first. -/
def firstAnswer (script : List Answer) : Answer := script.head?.getD noAnswer

theorem play_call (request : Request) (next : Answer → Exchange α) (script : List Answer) :
    (call request next).play script =
      let rest := (next (firstAnswer script)).play script.tail
      { rest with calls := request :: rest.calls } := by
  cases script <;> rfl

theorem calls_once (request : Request) (f : Answer → α) (script : List Answer) :
    ((once request f).play script).calls = [request] := by
  rw [once, play_call]
  rfl

theorem result_once (request : Request) (f : Answer → α) (script : List Answer) :
    ((once request f).play script).result = f (firstAnswer script) := by
  rw [once, play_call]
  rfl

end Exchange

/-! ## Operations with a state -/

section Operations

variable {ε σ α β : Type} {x : ExceptT ε (StateT σ Exchange) α} {s : σ}

/-- An operation that is begun in a state. -/
def startedIn (x : ExceptT ε (StateT σ Exchange) α) (s : σ) : Exchange (Except ε α × σ) :=
  x.run.run s

@[simp] theorem startedIn_pure (a : α) :
    startedIn (pure a : ExceptT ε (StateT σ Exchange) α) s = .done (.ok a, s) := rfl

@[simp] theorem startedIn_throw (e : ε) :
    startedIn (throw e : ExceptT ε (StateT σ Exchange) α) s = .done (.error e, s) := rfl

@[simp] theorem startedIn_bind (f : α → ExceptT ε (StateT σ Exchange) β) :
    startedIn (x >>= f) s = (startedIn x s >>= fun p => match p.1 with
      | .ok a => startedIn (f a) p.2
      | .error e => .done (.error e, p.2)) := by
  refine congrArg (startedIn x s >>= ·) (funext fun p => ?_)
  obtain ⟨outcome, s'⟩ := p
  cases outcome <;> rfl

@[simp] theorem startedIn_tryCatch (f : ε → ExceptT ε (StateT σ Exchange) α) :
    startedIn (tryCatch x f) s = (startedIn x s >>= fun p => match p.1 with
      | .ok a => .done (.ok a, p.2)
      | .error e => startedIn (f e) p.2) := by
  refine congrArg (startedIn x s >>= ·) (funext fun p => ?_)
  obtain ⟨outcome, s'⟩ := p
  cases outcome <;> rfl

@[simp] theorem startedIn_get :
    startedIn (get : ExceptT ε (StateT σ Exchange) σ) s = .done (.ok s, s) := rfl

@[simp] theorem startedIn_modify (f : σ → σ) :
    startedIn (modify f : ExceptT ε (StateT σ Exchange) PUnit) s = .done (.ok ⟨⟩, f s) := rfl

@[simp] theorem startedIn_send (request : Request) :
    startedIn (liftM (Exchange.send request) : ExceptT ε (StateT σ Exchange) Answer) s =
      Exchange.once request fun answer => (.ok answer, s) := rfl

section Keeps

variable {γ : Type} {P : Request → Prop} {part : σ → γ}

/-- In whatever state an operation is begun, every request that it can come to send has a property,
and a part of the state is the same behind it. -/
def Keeps (P : Request → Prop) (part : σ → γ) (x : ExceptT ε (StateT σ Exchange) α) : Prop :=
  ∀ s, (startedIn x s).Ensures P fun p => part p.2 = part s

/-- Every request that an operation can come to send, in whatever state it is begun, has a
property. -/
abbrev OnlySends (P : Request → Prop) (x : ExceptT ε (StateT σ Exchange) α) : Prop :=
  Keeps P (fun _ => ()) x

theorem Keeps.pure (a : α) : Keeps P part (pure a : ExceptT ε (StateT σ Exchange) α) :=
  fun _ => rfl

theorem Keeps.throw (e : ε) : Keeps P part (throw e : ExceptT ε (StateT σ Exchange) α) :=
  fun _ => rfl

theorem Keeps.get : Keeps P part (get : ExceptT ε (StateT σ Exchange) σ) := fun _ => rfl

theorem Keeps.modify {f : σ → σ} (h : ∀ s, part (f s) = part s) :
    Keeps P part (modify f : ExceptT ε (StateT σ Exchange) PUnit) :=
  h

theorem Keeps.send {request : Request} (h : P request) :
    Keeps P part (liftM (Exchange.send request) : ExceptT ε (StateT σ Exchange) Answer) :=
  fun _ => ⟨h, fun _ => rfl⟩

theorem Keeps.bind (hx : Keeps P part x) {f : α → ExceptT ε (StateT σ Exchange) β}
    (hf : ∀ a, Keeps P part (f a)) : Keeps P part (x >>= f) := by
  intro s
  rw [startedIn_bind, Exchange.ensures_bind]
  refine (hx s).mono fun p hp => ?_
  obtain ⟨outcome, s'⟩ := p
  cases outcome with
  | ok a => exact (hf a s').mono fun p' hp' => hp'.trans hp
  | error e => exact hp

theorem Keeps.tryCatch (hx : Keeps P part x) {f : ε → ExceptT ε (StateT σ Exchange) α}
    (hf : ∀ e, Keeps P part (f e)) : Keeps P part (tryCatch x f) := by
  intro s
  rw [startedIn_tryCatch, Exchange.ensures_bind]
  refine (hx s).mono fun p hp => ?_
  obtain ⟨outcome, s'⟩ := p
  cases outcome with
  | ok a => exact hp
  | error e => exact (hf e s').mono fun p' hp' => hp'.trans hp

theorem Keeps.calls (h : Keeps P part x) (script : List Answer) :
    ∀ r ∈ ((startedIn x s).play script).calls, P r :=
  (h s).calls script

end Keeps

section Once

variable {request : Request} {f : Answer → Except ε α}
  (hx : startedIn x s = .once request fun answer => (f answer, s))

include hx

/-- What sends one request still does so when its result is worked on. -/
theorem startedIn_bind_once {g : α → ExceptT ε (StateT σ Exchange) β} {h : α → Except ε β}
    (hg : ∀ a, startedIn (g a) s = .done (h a, s)) :
    startedIn (x >>= g) s = .once request fun answer => ((f answer).bind h, s) := by
  rw [startedIn_bind, hx]
  refine congrArg (Exchange.call request) (funext fun answer => ?_)
  dsimp only [Exchange.bind]
  cases f answer with
  | error e => rfl
  | ok a => exact hg a

/-- What sends one request still does so when its error is exchanged for another one. -/
theorem startedIn_tryCatch_once {g : ε → ExceptT ε (StateT σ Exchange) α} {h : ε → ε}
    (hg : ∀ e, startedIn (g e) s = .done (.error (h e), s)) :
    startedIn (tryCatch x g) s = .once request fun answer => ((f answer).mapError h, s) := by
  rw [startedIn_tryCatch, hx]
  refine congrArg (Exchange.call request) (funext fun answer => ?_)
  dsimp only [Exchange.bind]
  cases f answer with
  | error e => exact hg e
  | ok a => rfl

end Once

/-- An operation that comes to its end without a request and leaves the state as it is. -/
def Settles (x : ExceptT ε (StateT σ Exchange) α) (s : σ) : Prop :=
  ∃ outcome, startedIn x s = .done (outcome, s)

theorem Settles.pure (a : α) : Settles (pure a : ExceptT ε (StateT σ Exchange) α) s := ⟨.ok a, rfl⟩

theorem Settles.bind (h : Settles x s) {g : α → ExceptT ε (StateT σ Exchange) β}
    (hg : ∀ a, Settles (g a) s) : Settles (x >>= g) s := by
  obtain ⟨outcome, houtcome⟩ := h
  unfold Settles
  rw [startedIn_bind, houtcome]
  cases outcome with
  | ok a => exact hg a
  | error e => exact ⟨.error e, rfl⟩

/-- An operation that sends one request and leaves the state as it is, whatever the answer. -/
def AsksOnce (x : ExceptT ε (StateT σ Exchange) α) (s : σ) (request : Request) : Prop :=
  ∃ f : Answer → Except ε α, startedIn x s = .once request fun answer => (f answer, s)

variable {request : Request} {script : List Answer}

theorem AsksOnce.bind (h : AsksOnce x s request) {g : α → ExceptT ε (StateT σ Exchange) β}
    (hg : ∀ a, Settles (g a) s) : AsksOnce (x >>= g) s request :=
  ⟨_, startedIn_bind_once h.choose_spec fun a => (hg a).choose_spec⟩

theorem AsksOnce.ensures (h : AsksOnce x s request) {P : Request → Prop} (hP : P request) :
    (startedIn x s).Ensures P fun p => p.2 = s := by
  obtain ⟨f, hf⟩ := h
  rw [hf]
  exact ⟨hP, fun _ => rfl⟩

theorem AsksOnce.calls (h : AsksOnce x s request) :
    ((startedIn x s).play script).calls = [request] := by
  obtain ⟨f, hf⟩ := h
  rw [hf, Exchange.calls_once]

theorem AsksOnce.state (h : AsksOnce x s request) :
    ((startedIn x s).play script).result.2 = s := by
  obtain ⟨f, hf⟩ := h
  rw [hf, Exchange.result_once]

end Operations

end Backend

end ScimBridge
