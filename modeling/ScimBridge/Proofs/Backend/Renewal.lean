import ScimBridge.Proofs.Backend.Requests

/-!
# Renewing the service token

To renew the service token the token server is asked once. An error status and a failing connection
are told as such; an answer without one is either taken into use or it is a misfit, whose error is of
another kind (`startedIn_renew`).
-/

namespace ScimBridge

namespace Backend

namespace Token

/-! ## The token server's answer -/

/-- The token and its lifetime that the answer of a token server comes to. -/
def fetched (k : Credentials) : Answer → Except BackendError (Value × Int)
  | .response status text =>
    if status ≠ 200 then .error (.api status k.tokenUrl text)
    else (documentIn text).bind fun v => (ofAnswer v).mapError .token
  | .failure text => .error (.api 0 k.tokenUrl ("Token request failed: " ++ text))

theorem startedIn_fetch (k : Credentials) (c : Client) :
    startedIn (fetch k) c = .once (request k) fun answer => (fetched k answer, c) := by
  unfold fetch transmit
  simp only [startedIn_bind, startedIn_send, Exchange.once, Exchange.call_bind_eq,
    Exchange.done_bind_eq]
  refine congrArg (Exchange.call _) (funext fun answer => ?_)
  cases answer with
  | failure text => rfl
  | response status text =>
    by_cases hstatus : status = 200
    · simp only [hstatus, fetched, startedIn_pure, Exchange.done_bind_eq, ne_eq, not_true_eq_false,
        if_false, startedIn_bind, startedIn_readDocument]
      cases documentIn text with
      | error e => rfl
      | ok v =>
        dsimp only [Except.bind, Exchange.done_bind_eq]
        cases ofAnswer v <;> rfl
    · simp [hstatus, fetched]

/-- What is left behind when a token has been stored for a span of time. -/
def kept (token : Value) (span : Int) (c : Client) : Except BackendError Unit × Client :=
  match c.now.after span with
  | .ok deadline => (.ok (), { c with token, deadline := some deadline })
  | .error fault => (.error (.token (.deadline fault)), { c with token })

theorem startedIn_store (token : Value) (span : Int) (c : Client) :
    startedIn (store token (.ok span)) c = .done (kept token span c) := by
  unfold store kept
  simp only [startedIn_bind, startedIn_modify, startedIn_get, Exchange.done_bind_eq]
  dsimp only [Except.bind]
  cases c.now.after span <;> rfl

/-- A given token is stored for its own span of time. -/
theorem startedIn_useStatic (token seconds : Value) (c : Client) :
    startedIn (useStatic token seconds) c = .done (match Instant.spanOf seconds with
      | .ok span => kept token span { c with credentials := none }
      | .error fault => (.error (.token (.lifetime fault)), { c with token, credentials := none })) := by
  unfold useStatic
  rw [startedIn_bind, startedIn_modify, Exchange.done_bind_eq]
  cases Instant.spanOf seconds with
  | error fault => rfl
  | ok span => exact startedIn_store token span _

/-- The span for which a token with a lifetime in seconds is kept. -/
def keptFor (seconds : Int) : Int := max (seconds - margin) margin * Instant.perSecond

/-- What the answer of a token server to a renewal comes to. -/
def renewed (k : Credentials) (c : Client) (answer : Answer) : Except BackendError Unit × Client :=
  match fetched k answer with
  | .ok (token, seconds) => kept token (keptFor seconds) c
  | .error e => (.error e, c)

/-- A token is renewed by one request. -/
theorem startedIn_renew (k : Credentials) (c : Client) :
    startedIn (renew k) c = .once (request k) (renewed k c) := by
  unfold renew
  rw [startedIn_bind, startedIn_fetch]
  refine congrArg (Exchange.call _) (funext fun answer => ?_)
  dsimp only [Exchange.bind]
  unfold renewed
  cases fetched k answer with
  | error e => rfl
  | ok p =>
    obtain ⟨token, seconds⟩ := p
    exact startedIn_store token (keptFor seconds) c

/-- What the answer to a renewal comes to where the new token is asked for. -/
def renewedToken (k : Credentials) (c : Client) (answer : Answer) :
    Except BackendError Value × Client :=
  let p := renewed k c answer
  (p.1.map fun _ => p.2.token, p.2)

theorem startedIn_renew_stored (k : Credentials) (c : Client) :
    startedIn (do renew k; stored) c = .once (request k) (renewedToken k c) := by
  rw [startedIn_bind, startedIn_renew]
  refine congrArg (Exchange.call _) (funext fun answer => ?_)
  dsimp only [Exchange.bind, renewedToken]
  obtain ⟨outcome, c'⟩ := renewed k c answer
  cases outcome <;> rfl

theorem startedIn_authenticate (k : Credentials) (c : Client) :
    startedIn (authenticate k) c =
      .once (request k) (renewedToken k { c with credentials := some k }) := by
  unfold authenticate
  rw [startedIn_bind, startedIn_modify, Exchange.done_bind_eq]
  exact startedIn_renew_stored k _

/-! ## Answers of no use -/

/-- A text that brings a token into use at a time: a document that holds a token, with a lifetime
whose end is in the calendar. -/
def IsUsable (now : Instant) (text : String) : Prop :=
  ∃ v token seconds deadline, Value.ofDocument text = .ok v ∧ ofAnswer v = .ok (token, seconds) ∧
    now.after (keptFor seconds) = .ok deadline

/-- An answer that is reported as a success and brings no token into use. -/
def IsMisfit (now : Instant) : Answer → Prop
  | .response status text => status = 200 ∧ ¬IsUsable now text
  | .failure _ => False

/-- An error that reports a status, or that there was no answer. -/
def IsReported : BackendError → Prop
  | .api _ _ _ | .missing _ _ => True
  | .token _ | .unreadable _ | .misfit => False

theorem documentIn_eq_ok_iff {text : String} {v : Value} :
    documentIn text = .ok v ↔ Value.ofDocument text = .ok v := by
  unfold documentIn
  cases Value.ofDocument text <;> simp

variable {k : Credentials} {c : Client} {answer : Answer}

theorem fetched_success (text : String) : fetched k (.response 200 text) =
    (documentIn text).bind fun v => (ofAnswer v).mapError .token := by
  unfold fetched
  dsimp only
  rw [if_neg (not_not_intro rfl)]

theorem fetched_refusal {status : Int} (h : status ≠ 200) (text : String) :
    fetched k (.response status text) = .error (.api status k.tokenUrl text) := by
  unfold fetched
  dsimp only
  rw [if_pos h]

/-- A text that is no misfit renews the token. -/
theorem renewed_of_isUsable {text : String} (h : IsUsable c.now text) :
    (renewed k c (.response 200 text)).1 = .ok () := by
  obtain ⟨v, token, seconds, deadline, hv, htoken, hdeadline⟩ := h
  have hfetched : fetched k (.response 200 text) = .ok (token, seconds) := by
    rw [fetched_success, documentIn_eq_ok_iff.2 hv]
    show (ofAnswer v).mapError _ = _
    rw [htoken]
    rfl
  unfold renewed kept
  rw [hfetched]
  dsimp only
  rw [hdeadline]

/-- A misfit leads to an error that reports nothing. -/
theorem renewed_of_isMisfit (h : IsMisfit c.now answer) :
    ∃ e, (renewed k c answer).1 = .error e ∧ ¬IsReported e := by
  cases answer with
  | failure text => exact h.elim
  | response status text =>
    obtain ⟨rfl, hnot⟩ := h
    unfold renewed
    rw [fetched_success]
    cases hdocument : documentIn text with
    | error e =>
      have hunreadable : e = .unreadable (Document.complaint text) := by
        unfold documentIn at hdocument
        split at hdocument <;> cases hdocument
        rfl
      exact ⟨e, rfl, hunreadable ▸ not_false⟩
    | ok v =>
      dsimp only [Except.bind]
      cases htoken : ofAnswer v with
      | error fault => exact ⟨.token fault, rfl, not_false⟩
      | ok p =>
        obtain ⟨token, seconds⟩ := p
        dsimp only [Except.mapError]
        unfold kept
        cases hdeadline : c.now.after (keptFor seconds) with
        | error fault => exact ⟨.token (.deadline fault), rfl, not_false⟩
        | ok deadline =>
          exact (hnot ⟨v, token, seconds, deadline, documentIn_eq_ok_iff.1 hdocument, htoken,
            hdeadline⟩).elim

/-- Every error of a renewal reports something unless the answer is a misfit. -/
theorem isReported_of_renewed (h : ¬IsMisfit c.now answer) {e : BackendError}
    (he : (renewed k c answer).1 = .error e) : IsReported e := by
  cases answer with
  | failure text =>
    cases he
    trivial
  | response status text =>
    by_cases hstatus : status = 200
    · subst hstatus
      have husable : IsUsable c.now text :=
        Classical.byContradiction fun hnot => h ⟨rfl, hnot⟩
      rw [renewed_of_isUsable husable] at he
      cases he
    · unfold renewed at he
      rw [fetched_refusal hstatus] at he
      cases he
      trivial

end Token

end Backend

end ScimBridge
