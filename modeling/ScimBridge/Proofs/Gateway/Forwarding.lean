import ScimBridge.Proofs.Gateway.Callers

/-!
# Forwarding headers

A request that names a forwarded client is refused if its peer lies in no trusted network. A request
that names none is not checked, although it may name a scheme and a host: it is answered like the
request without forwarding headers as long as these leave its denials alone, and the address that it
was asked at where none is configured (`forwarding_headers_guarded`).

1. `header?_without_of_not_mem`: other headers are those of the request without some.
2. `Alike`: two handlings that do the same in every state with given settings.
3. `alike_handle`: each route is handled alike for two requests that are `Likened`.
-/

namespace ScimBridge

namespace Http

/-! ## Requests without some headers -/

/-- The request without the headers of some names. -/
def Request.without (names : List String) (r : Request) : Request :=
  { r with headers := r.headers.filter fun p => !(names.map headerKey).contains (headerKey p.1) }

variable {names : List String} {name : String} (r : Request)

theorem header?_without_of_not_mem (h : headerKey name ∉ names.map headerKey) :
    (r.without names).header? name = r.header? name := by
  have hfilter : (r.without names).headers.filter (fun p => headerKey p.1 == headerKey name) =
      r.headers.filter fun p => headerKey p.1 == headerKey name := by
    unfold Request.without
    rw [List.filter_filter]
    refine List.filter_congr fun p _ => ?_
    by_cases hkey : headerKey p.1 = headerKey name
    · simp [hkey, h]
    · simp [hkey]
  unfold Request.header?
  rw [hfilter]

theorem header_without_of_not_mem (h : headerKey name ∉ names.map headerKey) :
    (r.without names).header name = r.header name := by
  unfold Request.header
  rw [header?_without_of_not_mem r h]

theorem header?_without_of_mem (h : name ∈ names) : (r.without names).header? name = none := by
  have hfilter : (r.without names).headers.filter (fun p => headerKey p.1 == headerKey name) =
      [] := by
    unfold Request.without
    rw [List.filter_filter, List.filter_eq_nil_iff]
    intro p _ hp
    obtain ⟨hkey, hnot⟩ := Bool.and_eq_true_iff.1 hp
    have hmem : headerKey p.1 ∈ names.map headerKey :=
      List.mem_map.2 ⟨name, h, (beq_iff_eq.1 hkey).symm⟩
    rw [List.contains_iff_mem.2 hmem] at hnot
    exact Bool.false_ne_true hnot
  unfold Request.header?
  rw [hfilter]

theorem isSendable_without (h : r.isSendable = true) : (r.without names).isSendable = true := by
  unfold Request.isSendable at h ⊢
  rw [List.all_eq_true] at h ⊢
  exact fun p hp => h p (List.mem_of_mem_filter hp)

end Http

namespace Gateway

open Backend

/-- The headers by which a proxy says for whom, by which scheme and for which host it forwards a
request. -/
def forwardingNames : List String := ["X-Forwarded-For", "X-Forwarded-Proto", "X-Forwarded-Host"]

/-- The request without forwarding headers. -/
def bare (r : Http.Request) : Http.Request := r.without forwardingNames

/-- A peer in none of the trusted networks. -/
structure IsOutside (peers : List Net.Network) (peer : String) : Prop where
  named : peer ≠ ""
  outside : ∀ a, Net.Address.read? peer = some a → ∀ n ∈ peers, n.holds a = false

theorem peerDenial?_of_outside {peers : List Net.Network} {peer : String}
    (h : IsOutside peers peer) :
    ∃ description, peerDenial? peers peer = some (.badRequest description) := by
  unfold peerDenial?
  rw [if_neg h.named]
  cases haddress : Net.Address.read? peer with
  | none => exact ⟨_, rfl⟩
  | some a =>
    have hnone : (peers.any fun n => n.holds a) = false := by
      rw [List.any_eq_false]
      intro n hn
      rw [h.outside a haddress n hn]
      exact Bool.false_ne_true
    dsimp only
    rw [hnone]
    exact ⟨_, rfl⟩

/-! ## Alike -/

theorem bind_congr_of_ensures {α β : Type} {P : Backend.Request → Prop} {Q : α → Prop}
    {x : Exchange α} (h : x.Ensures P Q) {f f' : α → Exchange β} (hf : ∀ a, Q a → f a = f' a) :
    (x >>= f) = x >>= f' := by
  induction x with
  | done a => exact hf a h
  | call r next ih =>
    refine congrArg (Exchange.call r) (funext fun answer => ?_)
    exact ih answer (h.2 answer)

section

variable {α β : Type} {S : Settings}

/-- Two handlings that do the same in every state with given settings. -/
def Alike (S : Settings) (x y : Handling α) : Prop :=
  ∀ g : State, g.settings = S → startedIn x g = startedIn y g

/-- A handling that leaves the settings as they are. -/
abbrev KeepsSettings (x : Handling α) : Prop := Keeps (fun _ => True) State.settings x

namespace Alike

theorem refl (x : Handling α) : Alike S x x := fun _ _ => rfl

theorem bind {x y : Handling α} (h : Alike S x y) (f : α → Handling β) :
    Alike S (x >>= f) (y >>= f) := by
  intro g hg
  rw [startedIn_bind, startedIn_bind, h g hg]

theorem after {x : Handling α} (hx : KeepsSettings x) {f f' : α → Handling β}
    (h : ∀ a, Alike S (f a) (f' a)) : Alike S (x >>= f) (x >>= f') := by
  intro g hg
  rw [startedIn_bind, startedIn_bind]
  refine bind_congr_of_ensures (hx g) fun p hp => ?_
  obtain ⟨outcome, g'⟩ := p
  cases outcome with
  | ok a => exact h a g' (hp.trans hg)
  | error e => rfl

end Alike

theorem keepsSettings_get : KeepsSettings (get : Handling State) := Keeps.get

theorem keepsSettings_settle (x : Except Fault α) : KeepsSettings (Handling.settle x) :=
  fun _ => rfl

theorem keepsSettings_stopAt (fault : Option Fault) : KeepsSettings (Handling.stopAt fault) := by
  cases fault <;> exact fun _ => rfl

theorem keepsSettings_caller (i : Incoming) : KeepsSettings i.caller := by
  intro g
  obtain ⟨keys, hcaller⟩ := startedIn_caller i g
  rw [hcaller]
  exact rfl

end

/-! ## Requests without forwarding headers -/

section

variable {name : String} (r : Http.Request)

theorem header_bare (h : Http.headerKey name ∉ forwardingNames.map Http.headerKey) :
    (bare r).header name = r.header name :=
  Http.header_without_of_not_mem r h

theorem forwardingDenial?_of_no_client {r : Http.Request} (h : r.header "X-Forwarded-For" = "")
    (peers : List Net.Network) : forwardingDenial? peers r = none :=
  if_pos h

theorem header_bare_of_forwarding (h : name ∈ forwardingNames) : (bare r).header name = "" := by
  unfold Http.Request.header
  rw [bare, Http.header?_without_of_mem r h]
  rfl

theorem forwardingDenial?_bare (peers : List Net.Network) :
    forwardingDenial? peers (bare r) = none :=
  forwardingDenial?_of_no_client (header_bare_of_forwarding r (by decide)) peers

theorem isCutShort_bare : (bare r).isCutShort = r.isCutShort := by
  have hlength : (bare r).header "Content-Length" = r.header "Content-Length" :=
    header_bare r (by decide)
  have hchunked : (bare r).isChunked = r.isChunked := by
    unfold Http.Request.isChunked
    rw [header_bare r (by decide)]
  unfold Http.Request.isCutShort
  rw [hlength, hchunked]
  rfl

theorem document_bare : (bare r).document = r.document := by
  have hcontent : (bare r).content = r.content := by
    unfold Http.Request.content Http.Request.isChunked
    rw [header_bare r (by decide)]
    rfl
  unfold Http.Request.document
  rw [hcontent]

end

namespace Incoming

variable {S : Settings} (i : Incoming)

/-- The request that is handled, without its forwarding headers. -/
def bare (i : Incoming) : Incoming := { i with request := Gateway.bare i.request }

theorem request_bare : i.bare.request = Gateway.bare i.request := rfl

theorem target_bare : i.bare.target = i.target := rfl

theorem method_bare : i.bare.request.method = i.request.method := rfl

theorem caller_bare : i.bare.caller = i.caller := by
  unfold Incoming.caller
  rw [request_bare, header_bare i.request (by decide)]
  rfl

theorem content?_bare : i.bare.content? = i.content? := by
  unfold Incoming.content?
  rw [request_bare, isCutShort_bare, Gateway.document_bare]

theorem document_bare : i.bare.document = i.document := by
  unfold Incoming.document
  rw [content?_bare]

theorem searchQuery_bare : i.bare.searchQuery = i.searchQuery := by
  unfold Incoming.searchQuery
  rw [content?_bare]

theorem revision_bare : i.bare.revision = i.revision := by
  unfold Incoming.revision
  rw [request_bare, header_bare i.request (by decide)]

/-- The address that a request was asked at matters where none is configured. -/
def SameBase (S : Settings) (i : Incoming) : Prop :=
  S.publicAddress = "" → originOf? i.request i.target = originOf? (Gateway.bare i.request) i.target

variable {i} (h : i.SameBase S)

include h

theorem alike_base : Alike S i.base i.bare.base := by
  intro g hg
  unfold Incoming.base
  rw [startedIn_bind, startedIn_bind, startedIn_get, Exchange.done_bind_eq, Exchange.done_bind_eq]
  dsimp only
  split
  · rfl
  · rename_i hempty
    have hpublic : S.publicAddress = "" := by
      rw [← hg]
      exact not_not.1 hempty
    rw [request_bare, target_bare, h hpublic]

theorem alike_list (kind : Service.Kind) (t : String) (query : Fields Value) :
    Alike S (i.list kind t query) (i.bare.list kind t query) :=
  .after keepsSettings_get fun _ => .bind (alike_base h) _

theorem alike_collection (kind : Service.Kind) :
    Alike S (i.collection kind) (i.bare.collection kind) := by
  unfold Incoming.collection
  rw [caller_bare, document_bare]
  refine .after (keepsSettings_caller i) fun t => .after keepsSettings_get fun g => ?_
  rw [method_bare]
  cases Http.Method.ofWord i.request.method
  case post => exact .after (keepsSettings_settle _) fun body => .bind (alike_base h) _
  all_goals exact alike_list h kind t _

theorem alike_search (kind : Service.Kind) : Alike S (i.search kind) (i.bare.search kind) := by
  unfold Incoming.search
  rw [caller_bare, searchQuery_bare]
  exact .after (keepsSettings_caller i) fun t => .after (keepsSettings_settle _) fun query =>
    alike_list h kind t query

theorem alike_resource (kind : Service.Kind) (id : String) :
    Alike S (i.resource kind id) (i.bare.resource kind id) := by
  unfold Incoming.resource
  rw [caller_bare, document_bare, revision_bare]
  refine .after (keepsSettings_caller i) fun t => .after keepsSettings_get fun g => ?_
  rw [method_bare]
  cases Http.Method.ofWord i.request.method
  case put => exact .after (keepsSettings_settle _) fun body => .bind (alike_base h) _
  case patch => exact .after (keepsSettings_settle _) fun body => .bind (alike_base h) _
  case delete => exact .refl _
  all_goals exact .bind (alike_base h) _

theorem alike_handle (route : Route) : Alike S (i.handle route) (i.bare.handle route) := by
  unfold Incoming.handle
  refine .after keepsSettings_get fun g => ?_
  cases route with
  | providerConfig => exact .bind (alike_base h) _
  | resourceTypes => exact .bind (alike_base h) _
  | resourceType name => exact .bind (alike_base h) _
  | schemas => exact .after (keepsSettings_settle _) fun s => .bind (alike_base h) _
  | schema id =>
    refine .after (keepsSettings_settle _) fun s => ?_
    cases s.get? (Urn.ofIdentifier (some id)) with
    | none => exact .refl _
    | some d => exact .bind (alike_base h) _
  | collection kind => exact alike_collection h kind
  | search kind => exact alike_search h kind
  | resource kind id => exact alike_resource h kind id
  | _ => exact .refl _

theorem alike_checked (hclient : i.request.header "X-Forwarded-For" = "")
    (route : Except Denial Route) : Alike S (i.checked route) (i.bare.checked route) := by
  unfold Incoming.checked
  refine .after keepsSettings_get fun g => ?_
  rw [request_bare, forwardingDenial?_of_no_client hclient, forwardingDenial?_bare,
    header_bare i.request (by decide)]
  refine .after (keepsSettings_stopAt _) fun _ => .after (keepsSettings_settle _) fun route => ?_
  dsimp only
  split
  · exact .after (keepsSettings_stopAt _) fun _ => alike_handle h route
  · exact alike_handle h route

end Incoming

/-! ## Answers -/

/-- A request that gets no route for the host that it names, or because it asks for a connection in
both directions. -/
def IsTurnedAway (r : Http.Request) (target : Http.Target) : Prop :=
  hostDenial? r target ≠ none ∨ asksForSocket r target = true

/-- A request is turned away like the one without forwarding headers. -/
structure TurnedAwayAlike (r : Http.Request) (target : Http.Target) : Prop where
  host : hostDenial? r target = hostDenial? (bare r) target
  socket : asksForSocket r target = asksForSocket (bare r) target

namespace Incoming

variable {i : Incoming}

theorem route_bare (h : TurnedAwayAlike i.request i.target) : i.bare.route = i.route := by
  unfold Incoming.route
  rw [method_bare, request_bare, target_bare, h.host, h.socket]

theorem finished_bare (h : TurnedAwayAlike i.request i.target)
    (outcome : Except Fault Http.Response) : i.bare.finished outcome = i.finished outcome := by
  have hservice : i.bare.onService = i.onService := by
    unfold Incoming.onService
    rw [request_bare, header_bare i.request (by decide)]
  unfold Incoming.finished
  rw [route_bare h, hservice, target_bare, method_bare]

/-- A request without a forwarded client is answered like the one without forwarding headers if it is
turned away alike and its address is the same wherever it matters. -/
theorem answer_bare {g : State} (hsendable : i.request.isSendable = true)
    (htarget : Http.Target.ofText? i.request.target = some i.target)
    (hclient : i.request.header "X-Forwarded-For" = "") (haway : TurnedAwayAlike i.request i.target)
    (hbase : i.SameBase g.settings) :
    g.answer i.request i.verdict = g.answer i.bare.request i.verdict := by
  have hbare : i.bare.request.isSendable = true := Http.isSendable_without i.request hsendable
  calc g.answer i.request i.verdict
      = (startedIn (i.checked i.route) g >>= fun p => .done ((i.finished p.1).sent?, p.2)) :=
        answer_eq_finished hsendable htarget
    _ = (startedIn (i.bare.checked i.bare.route) g >>= fun p =>
          .done ((i.bare.finished p.1).sent?, p.2)) := by
        rw [alike_checked hbase hclient i.route g rfl, route_bare haway]
        simp only [finished_bare haway]
    _ = g.answer i.bare.request i.verdict := (answer_eq_finished (i := i.bare) hbare htarget).symm

/-! ## Rejected requests -/

/-- A request that is denied for its forwarding headers is answered at once. -/
theorem answer_of_denied {g : State} {d : Denial} (hsendable : i.request.isSendable = true)
    (htarget : Http.Target.ofText? i.request.target = some i.target)
    (hdenied : forwardingDenial? g.peers i.request = some d) :
    g.answer i.request i.verdict = .done (some (i.finished (.error (.denied d))), g) := by
  have hchecked : startedIn (i.checked i.route) g = .done (.error (.denied d), g) := by
    unfold Incoming.checked
    rw [startedIn_bind, startedIn_get, Exchange.done_bind_eq]
    dsimp only
    rw [hdenied]
    rfl
  rw [answer_eq_finished hsendable htarget, hchecked, Exchange.done_bind_eq,
    (i.finished_error (.denied d)).2]

end Incoming

/-- A request that is rejected: the answer has the status 400, the backend is not asked, and the
gateway stays as it is. -/
def Rejects (g : State) (r : Http.Request) (v : Verdict) : Prop :=
  ∃ response, g.answer r v = .done (some response, g) ∧ response.status = 400

/-- An outside peer that names a client is rejected, whatever it asks for. -/
theorem rejects_client {g : State} {r : Http.Request} {target : Http.Target} (v : Verdict)
    (hsendable : r.isSendable = true) (htarget : Http.Target.ofText? r.target = some target)
    (hpeer : IsOutside g.peers r.peer) (hclient : r.header "X-Forwarded-For" ≠ "") :
    Rejects g r v := by
  obtain ⟨description, hpeer⟩ := peerDenial?_of_outside hpeer
  have hdenied : forwardingDenial? g.peers r = some (.badRequest description) := by
    unfold forwardingDenial?
    rw [hpeer]
    exact if_neg hclient
  refine ⟨_, Incoming.answer_of_denied (i := ⟨r, target, v⟩) hsendable htarget hdenied, ?_⟩
  exact (Incoming.finished_error _ _).1

/-! ## The abilities of the service -/

namespace Incoming

/-- A request for the abilities of the service. -/
structure AsksAbilities (i : Incoming) : Prop where
  method : Http.Method.ofWord i.request.method = .get
  path : i.target.path = "/scim/v2/ServiceProviderConfig"

/-- What the abilities of a service at an address come to. -/
def abilities (origin : Option String) : Except Fault Http.Response :=
  match origin with
  | some o => .ok (reply 200 (Discovery.providerConfig (o ++ "/scim/v2")))
  | none => .error .unexpected

variable {i : Incoming} {g : State}

theorem route_of_abilities (h : i.AsksAbilities) (haway : ¬IsTurnedAway i.request i.target) :
    i.route = .ok .providerConfig := by
  obtain ⟨hhost, hsocket⟩ := not_or.1 haway
  have hfound : Route.find "/scim/v2/ServiceProviderConfig" .get = .ok .providerConfig := by
    decide
  unfold Incoming.route
  rw [not_not.1 hhost, h.method, h.path]
  dsimp only
  rw [if_neg hsocket, hfound]

theorem route_of_turnedAway (h : i.AsksAbilities) (haway : IsTurnedAway i.request i.target) :
    i.route = .error .unreadable := by
  have hsocket : Route.socketDenial "/scim/v2/ServiceProviderConfig" .get = .unreadable := by
    decide
  unfold Incoming.route
  rw [h.method, h.path]
  cases hhost : hostDenial? i.request i.target with
  | some d =>
    unfold hostDenial? at hhost
    split at hhost
    · cases hhost
    · rw [← Option.some.inj hhost]
  | none =>
    dsimp only
    rw [if_pos (haway.resolve_left (not_not_intro hhost)), hsocket]

/-- Where no address is configured, the service answers under the one that it was asked at. -/
theorem startedIn_base_of_unconfigured (hpublic : g.settings.publicAddress = "") :
    startedIn i.base g = .done (match originOf? i.request i.target with
      | some o => .ok (o ++ "/scim/v2")
      | none => .error .unexpected, g) := by
  unfold Incoming.base
  rw [startedIn_bind, startedIn_get, Exchange.done_bind_eq]
  dsimp only
  rw [if_neg (not_not_intro hpublic)]
  cases originOf? i.request i.target <;> rfl

theorem startedIn_abilities (hpublic : g.settings.publicAddress = "") :
    startedIn (i.handle .providerConfig) g =
      .done (abilities (originOf? i.request i.target), g) := by
  unfold Incoming.handle
  rw [startedIn_bind, startedIn_get, Exchange.done_bind_eq]
  dsimp only
  rw [startedIn_bind, startedIn_base_of_unconfigured hpublic, Exchange.done_bind_eq]
  unfold abilities
  cases originOf? i.request i.target <;> rfl

/-- The outcome of a request for the abilities of the service. -/
theorem startedIn_checked_abilities (h : i.AsksAbilities)
    (hclient : i.request.header "X-Forwarded-For" = "") (hpublic : g.settings.publicAddress = "") :
    (IsTurnedAway i.request i.target →
      startedIn (i.checked i.route) g = .done (.error (.denied .unreadable), g)) ∧
    (¬IsTurnedAway i.request i.target →
      startedIn (i.checked i.route) g = .done (abilities (originOf? i.request i.target), g)) := by
  constructor
  · intro haway
    rw [route_of_turnedAway h haway]
    unfold Incoming.checked
    rw [startedIn_bind, startedIn_get, Exchange.done_bind_eq]
    dsimp only
    rw [forwardingDenial?_of_no_client hclient]
    rfl
  · intro haway
    rw [route_of_abilities h haway, ← startedIn_abilities hpublic]
    exact i.startedIn_checked_of_open (forwardingDenial?_of_no_client hclient g.peers) rfl

theorem providerConfig_injective {base base' : String}
    (h : Discovery.providerConfig base = Discovery.providerConfig base') : base = base' := by
  simp only [Discovery.providerConfig, Discovery.metadata, Value.object.injEq, List.cons.injEq,
    Prod.mk.injEq, Value.string.injEq, true_and, and_true] at h
  exact (String.append_left_inj _).1 h

section

variable (h : i.AsksAbilities) (haway : ¬IsTurnedAway i.request i.target)

include h haway

theorem finished_reply (v : Value) :
    i.finished (.ok (reply 200 v)) = i.onService (reply 200 v) := by
  unfold Incoming.finished
  rw [route_of_abilities h haway, h.method]
  rfl

theorem finished_abilities_some (o : String) :
    (i.finished (abilities (some o))).status = 200 ∧
      (i.finished (abilities (some o))).body =
        .document (Discovery.providerConfig (o ++ "/scim/v2")) := by
  rw [abilities, finished_reply h haway]
  exact ⟨rfl, rfl⟩

omit h haway in
theorem finished_abilities_none : (i.finished (abilities none)).status = 500 :=
  (finished_error i .unexpected).1

theorem status_finished_abilities (origin : Option String) :
    (i.finished (abilities origin)).status ≠ 400 := by
  cases origin with
  | none =>
    rw [finished_abilities_none]
    decide
  | some o =>
    rw [(finished_abilities_some h haway o).1]
    decide

/-- The response tells the address at which the service was asked. -/
theorem finished_abilities_injective {o o' : Option String}
    (heq : i.finished (abilities o) = i.finished (abilities o')) : o = o' := by
  have hstatus := congrArg Http.Response.status heq
  cases o with
  | none =>
    cases o' with
    | none => rfl
    | some o' =>
      rw [finished_abilities_none, (finished_abilities_some h haway o').1] at hstatus
      exact absurd hstatus (by decide)
  | some o =>
    cases o' with
    | none =>
      rw [finished_abilities_none, (finished_abilities_some h haway o).1] at hstatus
      exact absurd hstatus (by decide)
    | some o' =>
      have hbody := congrArg Http.Response.body heq
      rw [(finished_abilities_some h haway o).2, (finished_abilities_some h haway o').2] at hbody
      have hbase := providerConfig_injective (Http.Body.document.inj hbody)
      rw [(String.append_left_inj _).1 hbase]

end

/-- A request for the abilities of the service is rejected if it is turned away, and else it is told
the address at which it was asked. -/
theorem answer_abilities (h : i.AsksAbilities) (hsendable : i.request.isSendable = true)
    (htarget : Http.Target.ofText? i.request.target = some i.target)
    (hclient : i.request.header "X-Forwarded-For" = "") (hpublic : g.settings.publicAddress = "") :
    (IsTurnedAway i.request i.target → Rejects g i.request i.verdict) ∧
    (¬IsTurnedAway i.request i.target → g.answer i.request i.verdict =
      .done (some (i.finished (abilities (originOf? i.request i.target))), g)) := by
  obtain ⟨hturned, hserved⟩ := startedIn_checked_abilities h hclient hpublic
  constructor
  · intro haway
    refine ⟨i.finished (.error (.denied .unreadable)), ?_, (finished_error _ _).1⟩
    rw [answer_eq_finished hsendable htarget, hturned haway, Exchange.done_bind_eq,
      (finished_error _ _).2]
  · intro haway
    have hsent : (i.finished (abilities (originOf? i.request i.target))).sent? =
        some (i.finished (abilities (originOf? i.request i.target))) := by
      cases originOf? i.request i.target with
      | none => exact (finished_error _ _).2
      | some o =>
        rw [abilities, finished_reply h haway]
        rfl
    rw [answer_eq_finished hsendable htarget, hserved haway, Exchange.done_bind_eq, hsent]

end Incoming

/-! ## The guard -/

theorem lastItem?_bare {name : String} (r : Http.Request) (h : name ∈ forwardingNames) :
    lastItem? (bare r) name = none := by
  unfold lastItem?
  rw [header_bare_of_forwarding r h]
  decide

section

variable {r : Http.Request} (target : Http.Target)
  (hscheme : lastItem? r "X-Forwarded-Proto" = none) (hhost : lastItem? r "X-Forwarded-Host" = none)

include hscheme

theorem schemeOf_bare : schemeOf r target = schemeOf (bare r) target := by
  unfold schemeOf
  rw [hscheme, lastItem?_bare r (by decide)]

theorem asksForSocket_bare : asksForSocket r target = asksForSocket (bare r) target := by
  unfold asksForSocket
  rw [schemeOf_bare target hscheme, header_bare r (by decide), header_bare r (by decide)]

include hhost

theorem hostOf_bare : hostOf r target = hostOf (bare r) target := by
  have hnamed : (bare r).header? "Host" = r.header? "Host" :=
    Http.header?_without_of_not_mem r (by decide)
  unfold hostOf
  rw [schemeOf_bare target hscheme, hhost, lastItem?_bare r (by decide), hnamed]

theorem turnedAwayAlike_of_unnamed : TurnedAwayAlike r target := by
  refine ⟨?_, asksForSocket_bare target hscheme⟩
  unfold hostDenial?
  rw [hostOf_bare target hscheme hhost]

theorem originOf?_bare : originOf? r target = originOf? (bare r) target := by
  unfold originOf?
  rw [schemeOf_bare target hscheme, hostOf_bare target hscheme hhost]

end

theorem turnedAwayAlike_of_not {r : Http.Request} {target : Http.Target}
    (h : ¬IsTurnedAway r target) (hbare : ¬IsTurnedAway (bare r) target) :
    TurnedAwayAlike r target := by
  obtain ⟨hhost, hsocket⟩ := not_or.1 h
  obtain ⟨hhost', hsocket'⟩ := not_or.1 hbare
  constructor
  · rw [not_not.1 hhost, not_not.1 hhost']
  · rw [Bool.not_eq_true] at hsocket hsocket'
    rw [hsocket, hsocket']

/-- A request for the abilities of a service without a configured address is rejected, or answered
like the one without forwarding headers, iff it is turned away or its scheme and host make no
difference. -/
theorem guarded_abilities_iff {g : State} {i : Incoming} (h : i.AsksAbilities)
    (hsendable : i.request.isSendable = true)
    (htarget : Http.Target.ofText? i.request.target = some i.target)
    (hclient : i.request.header "X-Forwarded-For" = "") (hpublic : g.settings.publicAddress = "") :
    (Rejects g i.request i.verdict ∨
        g.answer i.request i.verdict = g.answer (bare i.request) i.verdict) ↔
      IsTurnedAway i.request i.target ∨ (¬IsTurnedAway (bare i.request) i.target ∧
        originOf? i.request i.target = originOf? (bare i.request) i.target) := by
  obtain ⟨hturned, hserved⟩ := Incoming.answer_abilities h hsendable htarget hclient hpublic
  have hbare : i.bare.AsksAbilities := ⟨h.method, h.path⟩
  have hnobody : (bare i.request).header "X-Forwarded-For" = "" :=
    header_bare_of_forwarding i.request (by decide)
  obtain ⟨hturned', hserved'⟩ := Incoming.answer_abilities (i := i.bare) hbare
    (Http.isSendable_without i.request hsendable) htarget hnobody hpublic
  by_cases haway : IsTurnedAway i.request i.target
  · exact iff_of_true (.inl (hturned haway)) (.inl haway)
  -- a request that is served is not rejected, so what is left is to compare two responses
  have hnot : ¬Rejects g i.request i.verdict := by
    rintro ⟨response, hresponse, hstatus⟩
    rw [hserved haway] at hresponse
    obtain rfl := Option.some.inj (Prod.mk.inj (Exchange.done.inj hresponse)).1
    exact Incoming.status_finished_abilities h haway _ hstatus
  constructor
  · rintro (hrejects | heq)
    · exact (hnot hrejects).elim
    · have haway' : ¬IsTurnedAway (bare i.request) i.target := by
        intro haway'
        obtain ⟨response, hresponse, hstatus⟩ := hturned' haway'
        exact hnot ⟨response, heq.trans hresponse, hstatus⟩
      refine .inr ⟨haway', ?_⟩
      have hresponses := (hserved haway).symm.trans (heq.trans (hserved' haway'))
      rw [Incoming.finished_bare (turnedAwayAlike_of_not haway haway')] at hresponses
      exact Incoming.finished_abilities_injective h haway
        (Option.some.inj (Prod.mk.inj (Exchange.done.inj hresponses)).1)
  · rintro (haway' | ⟨haway', horigin⟩)
    · exact (haway haway').elim
    · exact .inr (Incoming.answer_bare hsendable htarget hclient
        (turnedAwayAlike_of_not haway haway') fun _ => horigin)

/-- A gateway that trusts the machine itself only and has no address of its own. -/
def plainState : State :=
  { settings := { demo := true }, peers := Net.Network.listOf localNetworks, setup := ⟨{}, .empty⟩
    schemas := { objects := [], config := .empty }, source := .backend
    client := .ofAddress usualAddress }

/-- A stranger asks for the abilities of the service, with one header. -/
def strangersRequest (name value : String) : Http.Request :=
  { method := "GET", target := "/scim/v2/ServiceProviderConfig", headers := [(name, value)]
    peer := "198.51.100.1" }

theorem isOutside_stranger (name value : String) :
    IsOutside plainState.peers (strangersRequest name value).peer := by
  have hpeers : ∀ n ∈ plainState.peers, n.holds ⟨.v4, 3325256705, none⟩ = false := by
    decide +kernel
  have hnamed : "198.51.100.1" ≠ "" := by decide
  refine ⟨hnamed, fun a ha => ?_⟩
  have hstranger : Net.Address.read? "198.51.100.1" = some ⟨.v4, 3325256705, none⟩ := by
    decide +kernel
  obtain rfl := Option.some.inj (hstranger.symm.trans ha)
  exact hpeers

theorem target_of_stranger (name value : String) :
    Http.Target.ofText? (strangersRequest name value).target =
      some ⟨"http", "localhost", "/scim/v2/ServiceProviderConfig", []⟩ := by
  show Http.Target.ofText? "/scim/v2/ServiceProviderConfig" = _
  exact Http.Target.ofText?_of_parts (by decide +kernel)

end Gateway

end ScimBridge
