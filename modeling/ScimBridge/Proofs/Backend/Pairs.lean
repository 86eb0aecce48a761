import Mathlib.Data.List.Forall2
import ScimBridge.Proofs.Backend.Requests

/-!
# Two runs side by side

Two exchanges go side by side (`Exchange.Beside`) if they send the same requests for as long as
their answers correspond, and come to results that correspond. This holds of a composition if it
holds step by step (`Beside.bind`), and it holds of whatever is played against answers that
correspond (`Beside.play`).

What the client of the backend does goes side by side with itself if the answers are
`Interchangeable`: they are the same, they report the same failure in other words, or they hold
documents that are taken for the same. Of an error, nothing but its wording differs then.
-/

namespace ScimBridge

namespace Backend

/-! ## Exchanges -/

namespace Exchange

variable {α β α' β' : Type} {R R' : Request → Answer → Answer → Prop} {Q : α → β → Prop}

/-- The same requests are sent for as long as the answers correspond, and the results correspond. -/
def Beside (R : Request → Answer → Answer → Prop) (Q : α → β → Prop) :
    Exchange α → Exchange β → Prop
  | .done a, .done b => Q a b
  | .call r f, .call r' g => r = r' ∧ ∀ answer answer', R r answer answer' →
      Beside R Q (f answer) (g answer')
  | _, _ => False

theorem Beside.bind {x : Exchange α} {y : Exchange β} (h : Beside R Q x y)
    {f : α → Exchange α'} {g : β → Exchange β'} {Q' : α' → β' → Prop}
    (hfg : ∀ a b, Q a b → Beside R Q' (f a) (g b)) : Beside R Q' (x >>= f) (y >>= g) := by
  induction x generalizing y with
  | done a =>
    cases y with
    | done b => exact hfg a b h
    | call r' next' => exact h.elim
  | call r next ih =>
    cases y with
    | done b => exact h.elim
    | call r' next' => exact ⟨h.1, fun a a' ha => ih a (h.2 a a' ha)⟩

theorem Beside.mono {x : Exchange α} {y : Exchange β} (h : Beside R Q x y) {Q' : α → β → Prop}
    (hR : ∀ r a a', R' r a a' → R r a a') (hQ : ∀ a b, Q a b → Q' a b) : Beside R' Q' x y := by
  induction x generalizing y with
  | done a =>
    cases y with
    | done b => exact hQ a b h
    | call r' next' => exact h.elim
  | call r next ih =>
    cases y with
    | done b => exact h.elim
    | call r' next' => exact ⟨h.1, fun a a' ha => ih a (h.2 a a' (hR r a a' ha))⟩

/-- The answers that an exchange takes from two scripts correspond. -/
def Meets (R : Request → Answer → Answer → Prop) :
    Exchange α → List Answer → List Answer → Prop
  | .done _, _, _ => True
  | .call r next, script, script' => R r (firstAnswer script) (firstAnswer script') ∧
      Meets R (next (firstAnswer script)) script.tail script'.tail

/-- Scripts that correspond answer by answer do so for every exchange. -/
theorem meets_of_forall₂ {T : Answer → Answer → Prop} (hT : ∀ a, T a a)
    (hR : ∀ r a a', T a a' → R r a a') (x : Exchange α) {script script' : List Answer}
    (h : List.Forall₂ T script script') : x.Meets R script script' := by
  induction x generalizing script script' with
  | done a => trivial
  | call r next ih =>
    cases h with
    | nil => exact ⟨hR _ _ _ (hT noAnswer), ih _ .nil⟩
    | cons hfirst hrest => exact ⟨hR _ _ _ hfirst, ih _ hrest⟩

/-- What goes side by side is played alike. -/
theorem Beside.play {x : Exchange α} {y : Exchange β} (h : Beside R Q x y)
    {script script' : List Answer} (hscripts : x.Meets R script script') :
    (x.play script).calls = (y.play script').calls ∧
      Q (x.play script).result (y.play script').result := by
  induction x generalizing y script script' with
  | done a =>
    cases y with
    | done b => exact ⟨rfl, h⟩
    | call r' next' => exact h.elim
  | call r next ih =>
    cases y with
    | done b => exact h.elim
    | call r' next' =>
      obtain ⟨rfl, hnext⟩ := h
      obtain ⟨hcalls, hresult⟩ := ih _ (hnext _ _ hscripts.1) hscripts.2
      rw [play_call, play_call]
      exact ⟨congrArg (r :: ·) hcalls, hresult⟩

end Exchange

/-! ## Operations -/

/-- Two results that correspond, or two errors that do. -/
inductive SameOutcome {ε α β : Type} (E : ε → ε → Prop) (Q : α → β → Prop) :
    Except ε α → Except ε β → Prop where
  | ok {a : α} {b : β} (h : Q a b) : SameOutcome E Q (.ok a) (.ok b)
  | error {e e' : ε} (h : E e e') : SameOutcome E Q (.error e) (.error e')

theorem SameOutcome.refl {ε α : Type} {E : ε → ε → Prop} {Q : α → α → Prop} (hE : ∀ e, E e e)
    (hQ : ∀ a, Q a a) (x : Except ε α) : SameOutcome E Q x x := by
  cases x with
  | ok a => exact .ok (hQ a)
  | error e => exact .error (hE e)

theorem SameOutcome.eq {ε α : Type} {x y : Except ε α} (h : SameOutcome Eq Eq x y) : x = y := by
  cases h with
  | ok h => exact congrArg Except.ok h
  | error h => exact congrArg Except.error h

section Operations

variable {ε σ α β α' β' : Type} {R : Request → Answer → Answer → Prop} {E : ε → ε → Prop}
  {Q : α → β → Prop} {x : ExceptT ε (StateT σ Exchange) α} {y : ExceptT ε (StateT σ Exchange) β}

/-- Begun in one state, two operations go side by side and leave one state. -/
def Parallel (R : Request → Answer → Answer → Prop) (E : ε → ε → Prop) (Q : α → β → Prop)
    (x : ExceptT ε (StateT σ Exchange) α) (y : ExceptT ε (StateT σ Exchange) β) : Prop :=
  ∀ s, (startedIn x s).Beside R (fun p q => SameOutcome E Q p.1 q.1 ∧ p.2 = q.2) (startedIn y s)

namespace Parallel

theorem pure {a : α} {b : β} (h : Q a b) :
    Parallel R E Q (pure a : ExceptT ε (StateT σ Exchange) α) (pure b) :=
  fun _ => ⟨.ok h, rfl⟩

theorem throw {e e' : ε} (h : E e e') :
    Parallel R E Q (throw e : ExceptT ε (StateT σ Exchange) α) (throw e') :=
  fun _ => ⟨.error h, rfl⟩

theorem get : Parallel R E Eq (get : ExceptT ε (StateT σ Exchange) σ) get :=
  fun _ => ⟨.ok rfl, rfl⟩

theorem modify (f : σ → σ) :
    Parallel R E Eq (modify f : ExceptT ε (StateT σ Exchange) PUnit) (modify f) :=
  fun _ => ⟨.ok rfl, rfl⟩

theorem send {r : Request} {Q : Answer → Answer → Prop} (h : ∀ a a', R r a a' → Q a a') :
    Parallel R E Q (liftM (Exchange.send r) : ExceptT ε (StateT σ Exchange) Answer)
      (liftM (Exchange.send r)) :=
  fun _ => ⟨rfl, fun a a' ha => ⟨.ok (h a a' ha), rfl⟩⟩

theorem bind (h : Parallel R E Q x y) {f : α → ExceptT ε (StateT σ Exchange) α'}
    {g : β → ExceptT ε (StateT σ Exchange) β'} {Q' : α' → β' → Prop}
    (hfg : ∀ a b, Q a b → Parallel R E Q' (f a) (g b)) : Parallel R E Q' (x >>= f) (y >>= g) := by
  intro s
  rw [startedIn_bind, startedIn_bind]
  refine (h s).bind ?_
  rintro ⟨outcome, s'⟩ ⟨outcome', _⟩ ⟨houtcome, rfl⟩
  cases houtcome with
  | ok hab => exact hfg _ _ hab s'
  | error he => exact ⟨.error he, rfl⟩

theorem tryCatch (h : Parallel R E Q x y) {f : ε → ExceptT ε (StateT σ Exchange) α}
    {g : ε → ExceptT ε (StateT σ Exchange) β}
    (hfg : ∀ e e', E e e' → Parallel R E Q (f e) (g e')) :
    Parallel R E Q (tryCatch x f) (tryCatch y g) := by
  intro s
  rw [startedIn_tryCatch, startedIn_tryCatch]
  refine (h s).bind ?_
  rintro ⟨outcome, s'⟩ ⟨outcome', _⟩ ⟨houtcome, rfl⟩
  cases houtcome with
  | ok hab => exact ⟨.ok hab, rfl⟩
  | error he => exact hfg _ _ he s'

/-- An operation that sends nothing goes beside itself. -/
theorem of_done {Q : α → α → Prop} (hE : ∀ e, E e e) (hQ : ∀ a, Q a a)
    (h : ∀ s, ∃ p, startedIn x s = .done p) : Parallel R E Q x x := by
  intro s
  obtain ⟨p, hp⟩ := h s
  rw [hp]
  exact ⟨.refl hE hQ p.1, rfl⟩

end Parallel

end Operations

/-! ## Answers that are taken for the same -/

/-- An answer with an error status, or none. -/
def Answer.IsFailure : Answer → Prop
  | .response status _ => 400 ≤ status
  | .failure _ => True

instance : DecidablePred Answer.IsFailure
  | .response status _ => inferInstanceAs (Decidable (400 ≤ status))
  | .failure _ => inferInstanceAs (Decidable True)

/-- Answers to a request that are the same, that report the same failure, or that hold documents
which are taken for the same in view of the parameters of the request. What the token server says has
to be the same unless it is a failure. -/
inductive Interchangeable (D : Option Value → Value → Value → Prop) (r : Request) :
    Answer → Answer → Prop where
  | same (answer : Answer) : Interchangeable D r answer answer
  | refusal {status : Int} (h : 400 ≤ status) (text text' : String) :
    Interchangeable D r (.response status text) (.response status text')
  | failure (text text' : String) : Interchangeable D r (.failure text) (.failure text')
  | document {text text' : String} {v v' : Value} (hform : r.form = none)
    (hv : Value.ofDocument text = .ok v) (hv' : Value.ofDocument text' = .ok v')
    (h : D r.params v v') (status : Int) :
    Interchangeable D r (.response status text) (.response status text')

/-- Errors that differ in their wording at most. -/
inductive SameError : BackendError → BackendError → Prop where
  | same (e : BackendError) : SameError e e
  | api (status : Int) (endpoint text text' : String) :
    SameError (.api status endpoint text) (.api status endpoint text')

/-- Texts that are the same, or that hold documents which are taken for the same. -/
def SameText (D : Value → Value → Prop) (text text' : String) : Prop :=
  text = text' ∨ ∃ v v', Value.ofDocument text = .ok v ∧ Value.ofDocument text' = .ok v' ∧ D v v'

section Client

variable {α β : Type} {D : Option Value → Value → Value → Prop}

/-- What the client does goes beside what it does with answers that are taken for the same. -/
abbrev Steady (D : Option Value → Value → Value → Prop) (Q : α → β → Prop) (x : Action α)
    (y : Action β) : Prop :=
  Parallel (Interchangeable D) SameError Q x y

theorem steady_of_done {Q : α → α → Prop} (hQ : ∀ a, Q a a) {x : Action α}
    (h : ∀ c, ∃ p, startedIn x c = .done p) : Steady D Q x x :=
  .of_done .same hQ h

theorem steady_readDocument {D' : Value → Value → Prop} (hrefl : ∀ v, D' v v)
    {text text' : String} (h : SameText D' text text') :
    Steady D D' (readDocument text) (readDocument text') := by
  rcases h with rfl | ⟨v, v', hv, hv', hD⟩
  · exact steady_of_done hrefl fun c => ⟨_, startedIn_readDocument text c⟩
  · intro c
    rw [startedIn_readDocument, startedIn_readDocument, documentIn, documentIn, hv, hv']
    exact ⟨.ok hD, rfl⟩

/-- Sent once, a request is answered with the same status; behind an error status the texts may
differ. -/
theorem steady_transmit (complaint : String) (r : Request) :
    Steady D (fun p q => p.1 = q.1 ∧
        (400 ≤ p.1 ∨ SameText (fun v v' => r.form = none ∧ D r.params v v') p.2 q.2))
      (transmit complaint r) (transmit complaint r) := by
  refine Parallel.bind (Parallel.send (Q := Interchangeable D r) fun _ _ h => h) fun a a' h => ?_
  cases h with
  | same =>
    cases a with
    | response status text => exact .pure ⟨rfl, .inr (.inl rfl)⟩
    | failure text => exact .throw (.same _)
  | refusal hstatus text text' => exact .pure ⟨rfl, .inl hstatus⟩
  | failure text text' => exact .throw (.api _ _ _ _)
  | document hform hv hv' hD status => exact .pure ⟨rfl, .inr (.inr ⟨_, _, hv, hv', hform, hD⟩)⟩

/-! ## Tokens -/

theorem steady_fetch (c : Credentials) : Steady D Eq (Token.fetch c) (Token.fetch c) := by
  refine Parallel.bind (steady_transmit _ _) ?_
  rintro ⟨status, text⟩ ⟨_, text'⟩ ⟨rfl, htexts⟩
  dsimp only at htexts ⊢
  by_cases hstatus : status = 200
  · rcases htexts with herror | rfl | ⟨v, v', -, -, hform, -⟩
    · omega
    · subst hstatus
      refine steady_of_done (fun _ => rfl) fun client => ?_
      simp only [ne_eq, not_true_eq_false, if_false, startedIn_bind,
        startedIn_readDocument, Exchange.done_bind_eq]
      cases documentIn text with
      | error e => exact ⟨_, rfl⟩
      | ok v =>
        dsimp only
        cases Token.ofAnswer v <;> exact ⟨_, rfl⟩
    · cases hform
  · simp only [ne_eq, hstatus, not_false_eq_true, if_true]
    exact Parallel.bind (.throw (Q := fun _ _ => False) (.api _ _ _ _)) fun _ _ h => h.elim

theorem steady_store (token : Value) (span : Except TokenFault Int) :
    Steady D Eq (Token.store token span) (Token.store token span) := by
  refine Parallel.bind (.modify _) ?_
  rintro ⟨⟩ ⟨⟩ -
  refine Parallel.bind .get ?_
  rintro client _ rfl
  dsimp only
  split
  · exact .modify _
  · exact .throw (.same _)

theorem steady_renew (c : Credentials) : Steady D Eq (Token.renew c) (Token.renew c) := by
  refine Parallel.bind (steady_fetch c) ?_
  rintro ⟨token, seconds⟩ _ rfl
  exact steady_store _ _

theorem steady_bearerFor (token : Option String) :
    Steady D Eq (bearerFor token) (bearerFor token) := by
  unfold bearerFor
  cases filledText? token with
  | some t => exact .pure rfl
  | none =>
    refine Parallel.bind .get ?_
    rintro client _ rfl
    dsimp only
    split
    · exact .pure rfl
    · rename_i c _ _
      refine Parallel.bind (steady_renew c) fun _ _ _ => Parallel.bind .get ?_
      rintro client' _ rfl
      exact .pure rfl
    · exact .throw (.same _)

/-! ## Requests -/

/-- A request that succeeds is answered with texts that are taken for the same. -/
theorem steady_request (method path : String) (content : Content) (token : Option String) :
    Steady D (fun p q => SameText (D content.params) p.2 q.2) (request method path content token)
      (request method path content token) := by
  refine Parallel.bind .get ?_
  rintro client _ rfl
  refine Parallel.bind (steady_bearerFor token) ?_
  rintro bearer _ rfl
  refine Parallel.bind (steady_transmit _ _) ?_
  rintro ⟨status, text⟩ ⟨_, text'⟩ ⟨rfl, htexts⟩
  dsimp only at htexts ⊢
  by_cases hstatus : 400 ≤ status
  · simp only [hstatus, if_true]
    exact Parallel.bind (.throw (Q := fun _ _ => False) (.api _ _ _ _)) fun _ _ h => h.elim
  · simp only [hstatus, if_false]
    have htext : SameText (D content.params) text text' := by
      rcases htexts with herror | htext | ⟨v, v', hv, hv', -, hD⟩
      · exact (hstatus herror).elim
      · exact .inl htext
      · exact .inr ⟨v, v', hv, hv', hD⟩
    exact .pure htext

theorem steady_requestDocument {method path : String} {content : Content} {token : Option String}
    (hrefl : ∀ v, D content.params v v) :
    Steady D (D content.params) (requestDocument method path content token)
      (requestDocument method path content token) :=
  Parallel.bind (steady_request method path content token) fun _ _ h => steady_readDocument hrefl h

/-- An object that is not there is reported in both. -/
theorem steady_namingMissing {Q : α → β → Prop} (object id : String) {x : Action α} {y : Action β}
    (h : Steady D Q x y) :
    Steady D Q (Objects.namingMissing object id x) (Objects.namingMissing object id y) := by
  refine Parallel.tryCatch h fun e e' he => ?_
  cases he with
  | same e =>
    cases e with
    | api status endpoint text => exact .throw (.same _)
    | _ => exact .throw (.same _)
  | api status endpoint text text' =>
    dsimp only
    split
    · exact .throw (.same _)
    · exact .throw (.api _ _ _ _)

/-- A request for one object is answered with documents that are taken for the same. -/
theorem steady_objectRequest {method object id : String} {content : Content}
    {token : Option String} (hrefl : ∀ v, D content.params v v) :
    Steady D (D content.params)
      (do
        let (_, text) ← Objects.namingMissing object id
          (request method (Objects.objectPath object id) content token)
        readDocument text)
      (do
        let (_, text) ← Objects.namingMissing object id
          (request method (Objects.objectPath object id) content token)
        readDocument text) :=
  Parallel.bind (steady_namingMissing object id (steady_request _ _ _ _)) fun _ _ h =>
    steady_readDocument hrefl h

end Client

end Backend

end ScimBridge
