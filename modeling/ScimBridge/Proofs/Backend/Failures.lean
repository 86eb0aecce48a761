import ScimBridge.Proofs.Backend.Pairs

/-!
# Failures of the backend

An answer with an error status, or none, is the last one that the client waits for: `FailsOn M x`
says that it ends `x` with an error that `M` finds in it. Steps that send nothing do so trivially,
and it is kept by compositions (`FailsOn.bind`). Every request of the client reports such an answer
by its status (`reports_request`).
-/

namespace ScimBridge

namespace Backend

namespace Exchange

variable {α β : Type} {bad : Answer → Prop} {Q : Answer → α → Prop}

/-- A bad answer ends an exchange, with a result that fits. -/
def StopsAt (bad : Answer → Prop) (Q : Answer → α → Prop) : Exchange α → Prop
  | .done _ => True
  | .call _ next => ∀ answer,
      StopsAt bad Q (next answer) ∧ (bad answer → ∃ a, next answer = .done a ∧ Q answer a)

theorem StopsAt.bind {x : Exchange α} (h : x.StopsAt bad Q) {f : α → Exchange β}
    {Q' : Answer → β → Prop} (hlast : ∀ answer a, Q answer a → ∃ b, f a = .done b ∧ Q' answer b)
    (hf : ∀ a, (f a).StopsAt bad Q') : (x >>= f).StopsAt bad Q' := by
  induction x with
  | done a => exact hf a
  | call request next ih =>
    refine fun answer => ⟨ih answer (h answer).1, fun hbad => ?_⟩
    obtain ⟨a, hnext, hQ⟩ := (h answer).2 hbad
    obtain ⟨b, hb, hQ'⟩ := hlast answer a hQ
    refine ⟨b, ?_, hQ'⟩
    show (next answer >>= f) = .done b
    rw [hnext, done_bind_eq, hb]

/-- The answers that an exchange takes from a script. -/
def heard : Exchange α → List Answer → List Answer
  | .done _, _ => []
  | .call _ next, script => firstAnswer script :: (next (firstAnswer script)).heard script.tail

/-- The result fits every bad answer that was taken. -/
theorem StopsAt.result {x : Exchange α} (h : x.StopsAt bad Q) (script : List Answer) :
    ∀ answer ∈ x.heard script, bad answer → Q answer (x.play script).result := by
  induction x generalizing script with
  | done a => simp [heard]
  | call request next ih =>
    intro answer hanswer hbad
    rw [play_call]
    rcases List.mem_cons.1 hanswer with rfl | hrest
    · obtain ⟨a, hnext, hQ⟩ := (h _).2 hbad
      rw [hnext]
      exact hQ
    · exact ih _ (h _).1 _ answer hrest hbad

end Exchange

/-! ## Operations -/

section Operations

variable {ε σ α β : Type} {M : Answer → ε → Prop} {x : ExceptT ε (StateT σ Exchange) α}

/-- In whatever state an operation is begun, a failure ends it with an error that fits. -/
def FailsOn (M : Answer → ε → Prop) (x : ExceptT ε (StateT σ Exchange) α) : Prop :=
  ∀ s, (startedIn x s).StopsAt Answer.IsFailure fun answer p => ∃ e, p.1 = .error e ∧ M answer e

namespace FailsOn

theorem of_done (h : ∀ s, ∃ p, startedIn x s = .done p) : FailsOn M x := by
  intro s
  obtain ⟨p, hp⟩ := h s
  rw [hp]
  trivial

theorem pure (a : α) : FailsOn M (pure a : ExceptT ε (StateT σ Exchange) α) := fun _ => trivial

theorem throw (e : ε) : FailsOn M (throw e : ExceptT ε (StateT σ Exchange) α) := fun _ => trivial

theorem throw_bind (e : ε) (f : α → ExceptT ε (StateT σ Exchange) β) :
    FailsOn M (MonadExcept.throw e >>= f) := fun _ => trivial

theorem get : FailsOn M (get : ExceptT ε (StateT σ Exchange) σ) := fun _ => trivial

theorem modify (f : σ → σ) :
    FailsOn M (modify f : ExceptT ε (StateT σ Exchange) PUnit) := fun _ => trivial

theorem bind (h : FailsOn M x) {f : α → ExceptT ε (StateT σ Exchange) β}
    (hf : ∀ a, FailsOn M (f a)) : FailsOn M (x >>= f) := by
  intro s
  rw [startedIn_bind]
  refine (h s).bind ?_ ?_
  · rintro answer ⟨outcome, s'⟩ ⟨e, rfl, hM⟩
    exact ⟨_, rfl, e, rfl, hM⟩
  · rintro ⟨outcome, s'⟩
    cases outcome with
    | ok a => exact hf a s'
    | error e => trivial

/-- An error that is exchanged for another one still fits. -/
theorem tryCatch {M' : Answer → ε → Prop} (h : FailsOn M' x)
    {f : ε → ExceptT ε (StateT σ Exchange) α} {g : ε → ε} (hf : ∀ e, f e = MonadExcept.throw (g e))
    (hg : ∀ answer e, M' answer e → M answer (g e)) : FailsOn M (tryCatch x f) := by
  intro s
  rw [startedIn_tryCatch]
  refine (h s).bind ?_ ?_
  · rintro answer ⟨outcome, s'⟩ ⟨e, rfl, hM⟩
    exact ⟨(.error (g e), s'), by dsimp only; rw [hf, startedIn_throw], g e, rfl, hg answer e hM⟩
  · rintro ⟨outcome, s'⟩
    cases outcome with
    | ok a => trivial
    | error e =>
      dsimp only
      rw [hf, startedIn_throw]
      trivial

end FailsOn

end Operations

/-! ## Requests -/

/-- What the client reports of a failure: its status, or that an object is not there. -/
inductive Reports : Answer → BackendError → Prop where
  | status {status : Int} (h : 400 ≤ status) (text endpoint text' : String) :
    Reports (.response status text) (.api status endpoint text')
  | missing (text object id : String) : Reports (.response 404 text) (.missing object id)
  | failure (text endpoint text' : String) : Reports (.failure text) (.api 0 endpoint text')

variable {α : Type}

/-- A request that is sent once reports a failure if what is done with its answer does. -/
theorem reports_transmit_bind (complaint : String) (r : Request) {f : Int × String → Action α}
    (hf : ∀ p, FailsOn Reports (f p))
    (herror : ∀ status text, 400 ≤ status →
      ∃ endpoint text', f (status, text) = throw (.api status endpoint text')) :
    FailsOn Reports (transmit complaint r >>= f) := by
  intro c answer
  cases answer with
  | failure text => exact ⟨trivial, fun _ => ⟨_, rfl, _, rfl, .failure _ _ _⟩⟩
  | response status text =>
    refine ⟨hf (status, text) c, fun hstatus => ?_⟩
    obtain ⟨endpoint, text', hthrow⟩ := herror status text hstatus
    refine ⟨(.error (.api status endpoint text'), c), ?_, _, rfl, .status hstatus _ _ _⟩
    show startedIn (f (status, text)) c = _
    rw [hthrow, startedIn_throw]

theorem reports_readDocument (text : String) : FailsOn Reports (readDocument text) :=
  .of_done fun c => ⟨_, startedIn_readDocument text c⟩

theorem reports_fetch (c : Credentials) : FailsOn Reports (Token.fetch c) := by
  refine reports_transmit_bind _ _ ?_ fun status text hstatus => ?_
  · rintro ⟨status, text⟩
    by_cases hstatus : status = 200
    · simp only [hstatus, ne_eq, not_true_eq_false, if_false]
      refine (reports_readDocument text).bind fun v => ?_
      cases Token.ofAnswer v with
      | ok found => exact .pure _
      | error fault => exact .throw _
    · simp only [hstatus, ne_eq, not_false_eq_true, if_true]
      exact .throw_bind _ _
  · have hne : status ≠ 200 := by omega
    exact ⟨c.tokenUrl, text, by simp only [hne, ne_eq, not_false_eq_true, if_true]; rfl⟩

theorem reports_bearerFor (token : Option String) : FailsOn Reports (bearerFor token) := by
  unfold bearerFor
  cases filledText? token with
  | some t => exact .pure _
  | none =>
    refine FailsOn.get.bind fun client => ?_
    dsimp only
    split
    · exact .pure _
    · refine FailsOn.bind ((reports_fetch _).bind fun found => ?_) fun _ =>
        FailsOn.get.bind fun _ => .pure _
      refine (FailsOn.modify _).bind fun _ => FailsOn.get.bind fun _ => ?_
      dsimp only
      split
      · exact .modify _
      · exact .throw _
    · exact .throw _

/-- A request reports a failure by its status. -/
theorem reports_request (method path : String) (content : Content) (token : Option String) :
    FailsOn Reports (request method path content token) := by
  refine FailsOn.get.bind fun client => (reports_bearerFor token).bind fun bearer =>
    reports_transmit_bind _ _ ?_ fun status text hstatus => ?_
  · rintro ⟨status, text⟩
    by_cases hstatus : 400 ≤ status
    · simp only [hstatus, if_true]
      exact .throw_bind _ _
    · simp only [hstatus, if_false]
      exact .pure _
  · exact ⟨client.baseUrl ++ path, text, by simp only [hstatus, if_true]; rfl⟩

theorem reports_requestDocument (method path : String) (content : Content)
    (token : Option String) : FailsOn Reports (requestDocument method path content token) :=
  (reports_request method path content token).bind fun p => reports_readDocument p.2

/-! ## Calls of managed objects -/

namespace Objects

variable {object id : String} {token : Option String}

theorem reports_membersOf (v : Value) : FailsOn Reports (membersOf v) :=
  .of_done fun c => ⟨_, startedIn_membersOf v c⟩

/-- An object that is not there is reported by its name. -/
theorem reports_namingMissing {x : Action α} (h : FailsOn Reports x) :
    FailsOn Reports (namingMissing object id x) := by
  refine h.tryCatch (g := naming object id) (fun e => ?_) fun answer e he => ?_
  · cases e with
    | api status endpoint text => by_cases hs : status = 404 <;> simp [naming, hs]
    | _ => rfl
  · cases he with
    | @status code hcode text endpoint text' =>
      simp only [naming]
      split
      · rename_i hmissing
        subst hmissing
        exact .missing _ _ _
      · exact .status hcode _ _ _
    | missing text object id => exact .missing _ _ _
    | failure text endpoint text' => exact .failure _ _ _

theorem reports_objectRequest (method : String) (content : Content) :
    FailsOn Reports (do
      let (_, text) ← namingMissing object id
        (request method (objectPath object id) content token)
      readDocument text) :=
  (reports_namingMissing (reports_request _ _ _ _)).bind fun p => reports_readDocument p.2

theorem reports_read : FailsOn Reports (read object id none token) :=
  reports_objectRequest "GET" {}

theorem reports_replace (body : Value) (revision : Option Value) :
    FailsOn Reports (replace object id body revision token) :=
  reports_objectRequest "PUT" _

theorem reports_patch (operations : Value) (revision : Option Value) :
    FailsOn Reports (patch object id operations revision token) :=
  reports_objectRequest "PATCH" _

theorem reports_delete (revision : Option Value) :
    FailsOn Reports (delete object id revision token) :=
  (reports_namingMissing (reports_request _ _ _ _)).bind fun _ => .pure _

theorem reports_create (body : Value) : FailsOn Reports (create object body token) :=
  (reports_requestDocument _ _ _ _).bind fun v => reports_membersOf v

/-- A query reports a failure, whichever of its two requests it answers. -/
theorem reports_query (q : Query) : FailsOn Reports (query object q token) := by
  refine FailsOn.bind ((reports_requestDocument _ _ _ _).bind fun v =>
    (reports_membersOf v).bind fun _ => .pure _) fun counted => ?_
  dsimp only
  split
  · exact .pure _
  · refine FailsOn.bind ?_ fun offset => (reports_requestDocument _ _ _ _).bind fun v =>
      (reports_membersOf v).bind fun members => ?_
    · unfold offsetOf
      split <;> first | exact .pure _ | exact .throw _
    · exact FailsOn.bind (.of_done fun c => ⟨_, startedIn_pageTotal c _ _⟩) fun _ => .pure _

end Objects

end Backend

end ScimBridge
