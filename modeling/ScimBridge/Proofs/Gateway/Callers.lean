import ScimBridge.Gateway.Answer
import ScimBridge.Proofs.Gateway.Bearer

/-!
# Callers of users and groups

A request to users or groups is served with the token of its caller or not at all
(`answer_isolates_callers`): without a token, or with one that is found to be invalid, it is
answered as unauthorized and the backend is not asked; otherwise everything that the backend is
asked bears the caller's token. The service's own token is neither used nor changed.

1. `startedIn_caller`: the caller is admitted, or refused, without a request.
2. `keeps_*`: behind the admission every step sends the caller's token only.
3. A caller who is not admitted ends the handling.
-/

namespace ScimBridge

namespace Http

theorem status_toMethod (r : Response) (method : Method) :
    (r.toMethod method).status = r.status := by
  cases method <;> rfl

theorem location_toMethod (r : Response) (method : Method) :
    (r.toMethod method).location = r.location := by
  cases method <;> rfl

/-- A text is read as an address without a query if it has the parts of one. -/
theorem Target.ofText?_of_parts {text scheme host path : String}
    (h : (Target.ofText? text).map (fun t => (t.scheme, t.host, t.path, t.query.isEmpty)) =
      some (scheme, host, path, true)) :
    Target.ofText? text = some ⟨scheme, host, path, []⟩ := by
  obtain ⟨⟨scheme, host, path, query⟩, htarget, hparts⟩ := Option.map_eq_some_iff.1 h
  simp only [Prod.mk.injEq, List.isEmpty_iff] at hparts
  obtain ⟨rfl, rfl, rfl, rfl⟩ := hparts
  exact htarget

end Http

namespace Gateway

open Backend

variable {α β : Type}

/-! ## Steps of a handling -/

section

variable {P : Backend.Request → Prop}

theorem startedIn_settle (x : Except Fault α) (g : State) :
    startedIn (Handling.settle x) g = .done (x, g) := rfl

theorem keeps_settle (x : Except Fault α) : Keeps P State.client (Handling.settle x) := fun _ => rfl

theorem keeps_base (i : Incoming) : Keeps P State.client i.base := by
  refine Keeps.get.bind fun g => ?_
  dsimp only
  split
  · exact .pure _
  · split
    · exact .pure _
    · exact .throw _

theorem startedIn_service (op : Service.Operation α) (g : State) :
    startedIn (Handling.service op) g = (startedIn op g.client >>= fun p =>
      .done (p.1.mapError Fault.ofService, { g with client := p.2 })) :=
  Exchange.bind_assoc (startedIn op g.client) (fun p => .done (p, g)) _

/-- An operation that leaves the client as it is does so for the gateway. -/
theorem keeps_service {op : Service.Operation α}
    (h : ∀ c, (startedIn op c).Ensures P fun p => p.2 = c) :
    Keeps P State.client (Handling.service op) := by
  intro g
  rw [startedIn_service, Exchange.ensures_bind]
  exact (h g.client).mono fun p hp => hp

end

/-! ## Admission -/

/-- What the check of a caller comes to. -/
def Incoming.admission (i : Incoming) (validates : Bool) : Except Fault String := do
  let token ← bearerToken (i.request.header "Authorization")
  if validates then
    match i.verdict.fault? with
    | some fault => .error fault
    | none => .ok token
  else .ok token

/-- The check of a caller sends nothing and changes the gateway only in where it looks for keys. -/
theorem startedIn_caller (i : Incoming) (g : State) :
    ∃ keys, startedIn i.caller g =
      .done (i.admission g.settings.validatesTokens, { g with keys }) := by
  unfold Incoming.caller Incoming.admission
  cases bearerToken (i.request.header "Authorization") with
  | error fault => exact ⟨g.keys, rfl⟩
  | ok token =>
    cases hvalidates : g.settings.validatesTokens with
    | false =>
      refine ⟨g.keys, ?_⟩
      simp only [startedIn_bind, startedIn_settle, startedIn_get, Exchange.done_bind_eq, hvalidates]
      rfl
    | true =>
      refine ⟨some g.settings.issuerKeys, ?_⟩
      simp only [startedIn_bind, startedIn_settle, startedIn_get, Exchange.done_bind_eq, hvalidates]
      cases i.verdict.fault? <;> rfl

/-! ## Routes of users and groups -/

/-- The routes that lead to users or groups. -/
def Route.IsResource : Route → Prop
  | .collection _ | .search _ | .resource _ _ => True
  | _ => False

section

variable {t : String} (ht : t ≠ "") (i : Incoming) (kind : Service.Kind)

include ht

/-- A call of the service is asked with the caller's token only. -/
theorem keeps_answer (s : Service.Setup) (baseUrl : String) (call : Service.Call) :
    Keeps (BearsToken t) State.client
      (Handling.service (s.answer kind ⟨some t, baseUrl⟩ call)) :=
  keeps_service (ensures_answer ht s kind baseUrl call)

theorem keeps_delete (s : Service.Setup) (id : String) (revision : Option Value) :
    Keeps (BearsToken t) State.client
      (Handling.service (s.delete kind id revision ⟨some t, ""⟩)) :=
  keeps_service fun c => (Service.asksOnce_delete ht "" c id revision).ensures
    (bearsToken_bearing (optionalRevision_cases revision))

theorem keeps_list (query : Fields Value) :
    Keeps (BearsToken t) State.client (i.list kind t query) :=
  Keeps.get.bind fun g => (keeps_base i).bind fun base =>
    (keeps_answer ht kind g.setup base (.list query)).bind fun _ => .pure _

omit ht in
/-- A route of users or groups checks its caller and goes on with the caller's token. -/
theorem handle_admits {route : Route} (h : route.IsResource) :
    ∃ rest : String → Handling Http.Response,
      (∀ t, t ≠ "" → Keeps (BearsToken t) State.client (rest t)) ∧
      ∀ g, startedIn (i.handle route) g = startedIn (i.caller >>= rest) g := by
  cases route with
  | collection kind =>
    refine ⟨_, fun t ht => Keeps.get.bind fun g => ?_, fun g => rfl⟩
    dsimp only
    split
    · exact (keeps_settle _).bind fun body => (keeps_base i).bind fun base =>
        (keeps_answer ht kind g.setup base (.create body)).bind fun _ => keeps_settle _
    · exact keeps_list ht i kind _
  | search kind =>
    exact ⟨_, fun t ht => (keeps_settle _).bind fun query => keeps_list ht i kind query,
      fun g => rfl⟩
  | resource kind id =>
    refine ⟨_, fun t ht => Keeps.get.bind fun g => ?_, fun g => rfl⟩
    dsimp only
    split
    · exact (keeps_settle _).bind fun body => (keeps_base i).bind fun base =>
        (keeps_answer ht kind g.setup base (.replace id body i.revision)).bind fun _ => .pure _
    · exact (keeps_settle _).bind fun body => (keeps_base i).bind fun base =>
        (keeps_answer ht kind g.setup base (.patch id body i.revision)).bind fun _ => .pure _
    · exact (keeps_delete ht kind g.setup id i.revision).bind fun _ => .pure _
    · exact (keeps_base i).bind fun base =>
        (keeps_answer ht kind g.setup base (.get id)).bind fun _ => .pure _
  | _ => exact h.elim

end

/-! ## Answers -/

/-- A verdict by which a token is not valid. -/
def Verdict.IsNegative : Verdict → Prop
  | .expired | .wrongIssuer _ | .wrongSignature | .malformed _ | .invalid _ => True
  | .valid _ | .broken => False

/-- A request without a token, or with one that is validated and found not to be valid. -/
def Unauthorized (g : State) (request : Http.Request) (verdict : Verdict) : Prop :=
  (∀ t, ¬Bears (request.header "Authorization") t) ∨
    (g.settings.validatesTokens = true ∧ verdict.IsNegative)

theorem admission_of_unauthorized {g : State} {i : Incoming}
    (h : Unauthorized g i.request i.verdict) :
    ∃ detail, i.admission g.settings.validatesTokens = .error (callerRefusal detail) := by
  unfold Incoming.admission
  cases htoken : bearerToken (i.request.header "Authorization") with
  | error fault =>
    obtain ⟨detail, rfl⟩ := bearerToken_error htoken
    exact ⟨detail, rfl⟩
  | ok token =>
    rcases h with hnone | ⟨hvalidates, hnegative⟩
    · exact (hnone token (bearerToken_eq_ok_iff.1 htoken)).elim
    · rw [hvalidates]
      cases hverdict : i.verdict <;> rw [hverdict] at hnegative <;>
        first | exact hnegative.elim | exact ⟨_, rfl⟩

theorem bears_of_admission {i : Incoming} {validates : Bool} {t : String}
    (h : i.admission validates = .ok t) : Bears (i.request.header "Authorization") t := by
  obtain ⟨token, htoken, h⟩ := bind_eq_ok_iff.1 h
  have heq : token = t := by
    cases validates with
    | false => exact Except.ok.inj h
    | true =>
      cases hfault : i.verdict.fault? with
      | some fault => simp [hfault] at h
      | none => simpa [hfault] using h
  exact heq ▸ bearerToken_eq_ok_iff.1 htoken

namespace Incoming

/-- A request that is not denied for its proxy headers goes on to its route, unless this is for
operators. -/
theorem startedIn_checked_of_open (i : Incoming) {g : State}
    (hforwarding : forwardingDenial? g.peers i.request = none) {route : Route}
    (hoperators : route.isOperators = false) :
    startedIn (i.checked (.ok route)) g = startedIn (i.handle route) g := by
  unfold Incoming.checked
  simp only [startedIn_bind, startedIn_get, Exchange.done_bind_eq, hforwarding]
  simp [Handling.stopAt, startedIn_settle, Except.mapError, hoperators]

/-- The response that an outcome becomes. -/
def finished (i : Incoming) (outcome : Except Fault Http.Response) : Http.Response :=
  let response := match outcome with
    | .ok r => r
    | .error fault => fault.response i.target.path
  let response := match i.route with
    | .ok r => if r.isService then i.onService response else response
    | .error _ => response
  response.toMethod (Http.Method.ofWord i.request.method)

theorem respond_eq (i : Incoming) (g : State) :
    i.respond g = (startedIn (i.checked i.route) g >>= fun p => .done (i.finished p.1, p.2)) := by
  unfold Incoming.respond Incoming.finished
  generalize i.route = route
  rfl

/-- The response to a fault has its status and is sent as it is. -/
theorem finished_error (i : Incoming) (fault : Fault) :
    (i.finished (.error fault)).status = (fault.response i.target.path).status ∧
      (i.finished (.error fault)).sent? = some (i.finished (.error fault)) := by
  have hlocation : (fault.response i.target.path).location = none := by
    cases fault <;> rfl
  have hfinished : (i.finished (.error fault)).status = (fault.response i.target.path).status ∧
      (i.finished (.error fault)).location = (fault.response i.target.path).location := by
    unfold Incoming.finished
    rw [Http.status_toMethod, Http.location_toMethod]
    dsimp only
    split
    · split <;> exact ⟨rfl, rfl⟩
    · exact ⟨rfl, rfl⟩
  refine ⟨hfinished.1, ?_⟩
  unfold Http.Response.sent?
  rw [hfinished.2, hlocation]

/-- A request that can be sent is checked, and the outcome becomes the response. -/
theorem answer_eq_finished {i : Incoming} {g : State}
    (hsendable : i.request.isSendable = true)
    (htarget : Http.Target.ofText? i.request.target = some i.target) :
    g.answer i.request i.verdict = (startedIn (i.checked i.route) g >>= fun p =>
      .done ((i.finished p.1).sent?, p.2)) := by
  have hfound : (Http.Target.ofText? i.request.target).filter (fun _ => i.request.isSendable) =
      some i.target := by
    simp [htarget, hsendable]
  unfold State.answer
  rw [hfound]
  show (i.respond g >>= _) = _
  rw [respond_eq, bind_assoc]
  refine congrArg (startedIn (i.checked i.route) g >>= ·) (funext fun p => ?_)
  rw [Exchange.done_bind_eq]
  rfl

end Incoming

/-- The response that an outcome becomes on a route of the protocol. -/
def Incoming.shaped (i : Incoming) (outcome : Except Fault Http.Response) : Http.Response :=
  (i.onService (match outcome with
    | .ok r => r
    | .error fault => fault.response i.target.path)).toMethod (Http.Method.ofWord i.request.method)

/-- The response to a caller who is refused. -/
theorem shaped_callerRefusal (i : Incoming) (detail : String) :
    ∃ response, (i.shaped (.error (callerRefusal detail))).sent? = some response ∧
      response.status = 401 ∧ response.media = .scim ∧
      response.body = if Http.Method.ofWord i.request.method = .head then .empty
        else .document (ScimError.mk 401 detail (some "unauthorized")).toValue := by
  unfold Incoming.shaped Http.Response.toMethod
  cases Http.Method.ofWord i.request.method <;> exact ⟨_, rfl, rfl, rfl, rfl⟩

section

variable {g : State} {request : Http.Request} {verdict : Verdict} {target : Http.Target}
  {route : Route} (hsendable : request.isSendable = true)
  (htarget : Http.Target.ofText? request.target = some target)
  (hroute : (Incoming.mk request target verdict).route = .ok route)
  (hresource : route.IsResource) (hforwarding : forwardingDenial? g.peers request = none)

include hsendable htarget hroute hresource hforwarding

omit hforwarding in
/-- A request that is routed is checked, and the outcome becomes the response. -/
theorem answer_eq_checked :
    g.answer request verdict =
      (startedIn ((Incoming.mk request target verdict).checked (.ok route)) g >>= fun p =>
        .done (((Incoming.mk request target verdict).shaped p.1).sent?, p.2)) := by
  have hservice : route.isService = true := by
    cases route <;> first | exact hresource.elim | rfl
  have hfinished : (Incoming.mk request target verdict).finished =
      (Incoming.mk request target verdict).shaped := by
    funext outcome
    unfold Incoming.finished
    rw [hroute]
    dsimp only
    rw [hservice]
    rfl
  rw [← hfinished, ← hroute]
  exact Incoming.answer_eq_finished (i := ⟨request, target, verdict⟩) hsendable htarget

omit hsendable htarget hroute in
/-- Behind the proxy headers, nothing stands between a request and its route. -/
theorem startedIn_checked :
    startedIn ((Incoming.mk request target verdict).checked (.ok route)) g =
      startedIn ((Incoming.mk request target verdict).handle route) g := by
  have hoperators : route.isOperators = false := by
    cases route <;> first | exact hresource.elim | rfl
  exact (Incoming.mk request target verdict).startedIn_checked_of_open hforwarding hoperators

theorem answer_eq :
    g.answer request verdict =
      (startedIn ((Incoming.mk request target verdict).handle route) g >>= fun p =>
        .done (((Incoming.mk request target verdict).shaped p.1).sent?, p.2)) := by
  rw [answer_eq_checked hsendable htarget hroute hresource, startedIn_checked hresource hforwarding]

/-- A caller who is not admitted is answered at once. -/
theorem answer_of_refused {fault : Fault}
    (h : (Incoming.mk request target verdict).admission g.settings.validatesTokens =
      .error fault) :
    ∃ keys, g.answer request verdict =
      .done (((Incoming.mk request target verdict).shaped (.error fault)).sent?,
        { g with keys }) := by
  obtain ⟨keys, hcaller⟩ := startedIn_caller (Incoming.mk request target verdict) g
  obtain ⟨rest, -, hhandle⟩ := handle_admits (Incoming.mk request target verdict) hresource
  refine ⟨keys, ?_⟩
  rw [answer_eq hsendable htarget hroute hresource hforwarding, hhandle, startedIn_bind, hcaller, h]
  rfl

/-- Whatever is sent for a caller bears the caller's token. -/
theorem ensures_answer_of_admitted {t : String}
    (h : (Incoming.mk request target verdict).admission g.settings.validatesTokens = .ok t) :
    (g.answer request verdict).Ensures (BearsToken t) fun p => p.2.client = g.client := by
  have ht : t ≠ "" := by
    obtain ⟨_, _, -, -, -, -, hne⟩ := bears_of_admission h
    exact hne
  obtain ⟨keys, hcaller⟩ := startedIn_caller (Incoming.mk request target verdict) g
  obtain ⟨rest, hrest, hhandle⟩ := handle_admits (Incoming.mk request target verdict) hresource
  rw [answer_eq hsendable htarget hroute hresource hforwarding, hhandle, startedIn_bind, hcaller, h,
    Exchange.ensures_bind]
  exact hrest t ht { g with keys }

end

/-- A request to users or groups that the proxy headers let through leaves the client of the backend
as it is. Without a valid token it is answered as unauthorized and the backend is not asked;
otherwise every request to the backend bears the token of the caller, whatever token the service has
of its own. -/
theorem answer_isolates_callers (g : State) (request : Http.Request) (verdict : Verdict)
    (target : Http.Target) (route : Route) (script : List Answer)
    (hsendable : request.isSendable = true)
    (htarget : Http.Target.ofText? request.target = some target)
    (hroute : (Incoming.mk request target verdict).route = .ok route)
    (hresource : route.IsResource) (hforwarding : forwardingDenial? g.peers request = none) :
    let played := (g.answer request verdict).play script
    played.result.2.client = g.client ∧
    (Unauthorized g request verdict → played.calls = [] ∧
      ∃ response detail, played.result.1 = some response ∧
        response.status = 401 ∧ response.media = .scim ∧
        response.body = if Http.Method.ofWord request.method = .head then .empty
          else .document (ScimError.mk 401 detail (some "unauthorized")).toValue) ∧
    (¬Unauthorized g request verdict → ∃ t, Bears (request.header "Authorization") t ∧
      ∀ r ∈ played.calls, BearsToken t r) := by
  intro played
  cases hadmission :
      (Incoming.mk request target verdict).admission g.settings.validatesTokens with
  | ok t =>
    have hensures := ensures_answer_of_admitted hsendable htarget hroute hresource hforwarding
      hadmission
    refine ⟨hensures.result script, fun h => ?_, fun _ =>
      ⟨t, bears_of_admission hadmission, hensures.calls script⟩⟩
    obtain ⟨detail, hrefused⟩ :=
      admission_of_unauthorized (i := Incoming.mk request target verdict) h
    rw [hadmission] at hrefused
    cases hrefused
  | error fault =>
    obtain ⟨keys, hanswer⟩ := answer_of_refused hsendable htarget hroute hresource hforwarding
      hadmission
    have hplayed : played = ⟨(((Incoming.mk request target verdict).shaped (.error fault)).sent?,
        { g with keys }), [], script⟩ := by
      simp only [played, hanswer]
      rfl
    rw [hplayed]
    refine ⟨rfl, fun h => ⟨rfl, ?_⟩, fun h => ?_⟩
    · obtain ⟨detail, hrefused⟩ :=
        admission_of_unauthorized (i := Incoming.mk request target verdict) h
      obtain rfl := Except.error.inj (hadmission.symm.trans hrefused)
      obtain ⟨response, hresponse⟩ :=
        shaped_callerRefusal (Incoming.mk request target verdict) detail
      exact ⟨response, detail, hresponse⟩
    · -- the validation itself failed: there is a token, and nothing has been sent
      obtain ⟨t, ht⟩ := not_forall_not.1 (not_or.1 h).1
      exact ⟨t, ht, fun r hr => (List.not_mem_nil hr).elim⟩

/-! ## A request for one user -/

/-- A caller's request for one user. -/
def userRequest : Http.Request :=
  { method := "GET", target := "/scim/v2/Users/1", headers := [("Authorization", "Bearer abc")] }

/-- A gateway that validates the tokens of callers. -/
def guardedState : State :=
  { settings := { demo := true, issuer := "https://issuer.test" }, peers := []
    setup := ⟨{}, .empty⟩, schemas := { objects := [], config := .empty }, source := .backend
    client := .ofAddress usualAddress }

theorem target_of_user :
    Http.Target.ofText? userRequest.target =
      some ⟨"http", "localhost", "/scim/v2/Users/1", []⟩ := by
  exact Http.Target.ofText?_of_parts (by decide +kernel)

theorem route_of_user :
    (Incoming.mk userRequest ⟨"http", "localhost", "/scim/v2/Users/1", []⟩
      (.valid (.object []))).route = .ok (.resource .user "1") := rfl

theorem forwarding_of_user : forwardingDenial? guardedState.peers userRequest = none := rfl

/-- A token that is valid is passed on as it is. -/
theorem answer_passes_token :
    ∃ t, Bears (userRequest.header "Authorization") t ∧
      ∀ r ∈ ((guardedState.answer userRequest (.valid (.object []))).play []).calls,
        BearsToken t r := by
  have hbears : Bears (userRequest.header "Authorization") "abc" :=
    ⟨"Bearer".toList, "abc".toList, by decide, by decide, by decide, by decide, by decide⟩
  have hauthorized : ¬Unauthorized guardedState userRequest (.valid (.object [])) :=
    not_or.2 ⟨fun hnone => hnone "abc" hbears, fun hnegative => hnegative.2⟩
  exact (answer_isolates_callers guardedState userRequest (.valid (.object [])) _
    (.resource .user "1") [] (by decide) target_of_user route_of_user trivial
    forwarding_of_user).2.2 hauthorized

end Gateway

end ScimBridge
