import ScimBridge.Proofs.Backend.Renewal
import ScimBridge.Proofs.Gateway.Forwarding
import ScimBridge.Proofs.Schema.Loading

/-!
# Starting

A gateway with usable settings starts whatever the backend answers, and is ready iff its schemas
could be built, unless the first answer of the token server is a misfit: then it does not start
(`starts_unless_misfit`).

1. `prepared_of`: the token server is asked once, and a misfit alone ends the start.
2. `rebuilt_fresh`: the schemas are published, or an object fails to load.
3. `answers_health`, `answers_ready`: what is told about a gateway that has started.
-/

namespace ScimBridge

namespace Gateway

open Backend

/-! ## The client -/

/-- The account of the service at its token server. -/
def Settings.account (s : Settings) : Credentials := ⟨s.tokenAddress, s.clientId, s.clientSecret⟩

/-- A client before its first token. -/
def Settings.newClient (s : Settings) : Client :=
  { Client.ofVariables s.backendAddress [] with credentials := some s.account }

/-- The client that a first renewal leaves behind, if the gateway goes on with it. -/
def opened {α : Type} : Except BackendError α × Client → Except StartError Client
  | (.ok _, c) | (.error (.api _ _ _), c) | (.error (.missing _ _), c) => .ok c
  | (.error (.token _), _) | (.error (.unreadable _), _) | (.error .misfit, _) => .error .misfit

theorem opened_map {α β : Type} (f : α → β) (p : Except BackendError α × Client) :
    opened (p.1.map f, p.2) = opened p := by
  obtain ⟨outcome, c⟩ := p
  cases outcome with
  | ok a => rfl
  | error e => cases e <;> rfl

/-- A token server is named, and its first answer is a misfit. -/
def Settings.IsMisled (s : Settings) (script : List Answer) : Prop :=
  s.tokenAddress ≠ "" ∧ Token.IsMisfit 0 (Exchange.firstAnswer script)

section

variable {s : Settings}

theorem openClient_unnamed (h : s.tokenAddress = "") :
    openClient s = .done (.ok (Client.ofVariables s.backendAddress [])) := by
  unfold openClient
  dsimp only
  rw [if_pos h]
  rfl

/-- The token server is asked once. -/
theorem openClient_named (h : s.tokenAddress ≠ "") :
    openClient s = .once (Token.request s.account) fun answer =>
      opened (Token.renewed s.account s.newClient answer) := by
  have hrun : openClient s =
      (startedIn (Token.authenticate s.account) (Client.ofVariables s.backendAddress []) >>= fun p =>
        .done (opened p)) := by
    unfold openClient
    dsimp only
    rw [if_neg h]
    refine congrArg (startedIn (Token.authenticate s.account) _ >>= ·) (funext fun p => ?_)
    obtain ⟨outcome, c⟩ := p
    cases outcome with
    | ok a => rfl
    | error e => cases e <;> rfl
  rw [hrun, Token.startedIn_authenticate]
  exact congrArg (Exchange.call _) (funext fun answer => congrArg Exchange.done (opened_map _ _))

theorem opened_of_isMisfit {answer : Answer} (h : Token.IsMisfit 0 answer) :
    opened (Token.renewed s.account s.newClient answer) = .error .misfit := by
  obtain ⟨e, he, hnot⟩ := Token.renewed_of_isMisfit (k := s.account) (c := s.newClient) h
  generalize Token.renewed s.account s.newClient answer = p at he ⊢
  obtain ⟨outcome, c⟩ := p
  obtain rfl : outcome = .error e := he
  cases e <;> first | exact (hnot trivial).elim | rfl

theorem exists_opened {answer : Answer} (h : ¬Token.IsMisfit 0 answer) :
    ∃ c, opened (Token.renewed s.account s.newClient answer) = .ok c := by
  have hreported : ∀ e, (Token.renewed s.account s.newClient answer).1 = .error e →
      Token.IsReported e := fun e =>
    Token.isReported_of_renewed (k := s.account) (c := s.newClient) h
  generalize Token.renewed s.account s.newClient answer = p at hreported ⊢
  obtain ⟨outcome, c⟩ := p
  refine ⟨c, ?_⟩
  cases outcome with
  | ok a => rfl
  | error e =>
    have he : Token.IsReported e := hreported e rfl
    cases e <;> first | exact he.elim | rfl

end

/-! ## Starts -/

/-- A gateway before its schemas are built, with a client for the backend. -/
def State.fresh (s : Settings) (config : MappingConfig) (client : Client) : State :=
  { settings := s
    peers := Net.Network.listOf s.trustedPeers
    setup := ⟨⟨s.userObject, s.roleObject⟩, config⟩
    schemas := { objects := s.managedObjects, config }
    source := .backend
    client }

section

variable {s : Settings} {files : Files} {config : MappingConfig}

theorem result_prepare (s : Settings) (config : MappingConfig) (script : List Answer) :
    ((State.prepare s config none).play script).result =
      ((openClient s).play script).result.map (State.fresh s config) :=
  Exchange.result_bind (openClient s) (fun client => .done (client.map (State.fresh s config))) script

/-- A gateway is prepared unless the token server's answer is a misfit. -/
theorem prepared_of (s : Settings) (config : MappingConfig) (script : List Answer) :
    (s.IsMisled script →
      ((State.prepare s config none).play script).result = .error .misfit) ∧
    (¬s.IsMisled script → ∃ client,
      ((State.prepare s config none).play script).result = .ok (State.fresh s config client)) := by
  rw [result_prepare]
  by_cases hnamed : s.tokenAddress = ""
  · rw [openClient_unnamed hnamed]
    exact ⟨fun h => (h.1 hnamed).elim, fun _ => ⟨_, rfl⟩⟩
  · rw [openClient_named hnamed, Exchange.result_once]
    refine ⟨fun h => ?_, fun h => ?_⟩
    · rw [opened_of_isMisfit h.2]
      rfl
    · obtain ⟨client, hclient⟩ := exists_opened (s := s) fun hmisfit => h ⟨hnamed, hmisfit⟩
      rw [hclient]
      exact ⟨client, rfl⟩

/-- The gateway that a rebuild leaves behind, if it starts. -/
def settled : Except Schema.RebuildError Schema.Snapshot × State → Except StartError State
  | (.ok _, g) | (.error (.load _ _), g) => .ok g
  | (.error e, _) => .error (.schemas e)

theorem start_eq (hlevel : partsOfLog.contains (upperCase s.logLevel) = false)
    (hconfig : s.mappingConfig files = .ok config) :
    State.start s files none = (State.prepare s config none >>= fun prepared =>
      match prepared with
      | .error e => .done (.error e)
      | .ok g => g.rebuild >>= fun p => .done (settled p)) := by
  unfold State.start
  dsimp only
  rw [hlevel, hconfig]
  refine congrArg (State.prepare s config none >>= ·) (funext fun prepared => ?_)
  cases prepared with
  | error e => rfl
  | ok g =>
    refine congrArg (g.rebuild >>= ·) (funext fun p => ?_)
    obtain ⟨outcome, g'⟩ := p
    cases outcome with
    | ok snapshot => rfl
    | error e => cases e <;> rfl

/-- A gateway is prepared, and its schemas are rebuilt with what is left of the script. -/
theorem result_start (hlevel : partsOfLog.contains (upperCase s.logLevel) = false)
    (hconfig : s.mappingConfig files = .ok config) (script : List Answer) :
    let prepared := (State.prepare s config none).play script
    ((State.start s files none).play script).result =
      prepared.result.bind fun g => settled (g.rebuild.play prepared.unused).result := by
  intro prepared
  rw [start_eq hlevel hconfig, Exchange.result_bind]
  change (Exchange.play (match prepared.result with
    | .error e => .done (.error e)
    | .ok g => g.rebuild >>= fun p => .done (settled p)) prepared.unused).result = _
  cases prepared.result with
  | error e => rfl
  | ok g =>
    dsimp only
    rw [Exchange.result_bind]
    rfl

/-- The schemas of a fresh gateway are published, or an object fails to load. -/
theorem rebuilt_fresh (s : Settings) (config : MappingConfig) (client : Client)
    (script : List Answer) :
    let rebuilt := ((State.fresh s config client).rebuild.play script).result
    Schema.Rebuilt (State.fresh s config client).schemas rebuilt.1 rebuilt.2.schemas := by
  have hrun : (State.fresh s config client).rebuild =
      (((State.fresh s config client).schemas.rebuild Schema.backendSource).run client >>= fun p =>
        .done (p.1.1, { State.fresh s config client with schemas := p.1.2, client := p.2 })) := rfl
  have hensures : (State.fresh s config client).rebuild.Ensures (fun _ => True) fun p =>
      Schema.Rebuilt (State.fresh s config client).schemas p.1 p.2.schemas := by
    rw [hrun, Exchange.ensures_bind]
    exact Schema.ensures_rebuild _ client
  exact hensures.result script

/-- A gateway starts with either outcome. -/
theorem settled_of_rebuilt {before : Schema.Cache} {g : State}
    {outcome : Except Schema.RebuildError Schema.Snapshot}
    (h : Schema.Rebuilt before outcome g.schemas) : settled (outcome, g) = .ok g := by
  generalize g.schemas = behind at h
  cases h <;> rfl

end

/-! ## Signs of life -/

/-- Every request for a route that is not denied for its proxy headers is answered with a status. -/
def Answers (g : State) (route : Route) (status : Int) : Prop :=
  ∀ i : Incoming, i.request.isSendable = true →
    Http.Target.ofText? i.request.target = some i.target → i.route = .ok route →
    forwardingDenial? g.peers i.request = none →
    ∃ response, g.answer i.request i.verdict = .done (some response, g) ∧ response.status = status

section

variable {g : State}

theorem answers_word {route : Route} (hservice : route.isService = false)
    (hoperators : route.isOperators = false) {status : Int} {w : String}
    (h : ∀ i : Incoming, startedIn (i.handle route) g = .done (.ok (wordReply status w), g)) :
    Answers g route status := by
  intro i hsendable htarget hroute hforwarding
  let response := (wordReply status w).toMethod (Http.Method.ofWord i.request.method)
  have hfinished : i.finished (.ok (wordReply status w)) = response := by
    unfold Incoming.finished
    rw [hroute]
    dsimp only
    rw [hservice]
    rfl
  have hsent : response.sent? = some response := by
    unfold Http.Response.sent?
    rw [Http.location_toMethod]
    rfl
  refine ⟨response, ?_, Http.status_toMethod _ _⟩
  rw [Incoming.answer_eq_finished hsendable htarget, hroute,
    i.startedIn_checked_of_open hforwarding hoperators, h i, Exchange.done_bind_eq, hfinished, hsent]

theorem answers_health (g : State) : Answers g .health 200 :=
  answers_word rfl rfl fun _ => rfl

theorem startedIn_ready (i : Incoming) (g : State) :
    startedIn (i.handle .ready) g = .done (.ok (if g.schemas.snapshot.initialized then
      wordReply 200 "ready" else wordReply 503 "not ready"), g) := by
  unfold Incoming.handle
  rw [startedIn_bind, startedIn_get, Exchange.done_bind_eq]
  rfl

theorem answers_ready (g : State) :
    Answers g .ready (if g.schemas.snapshot.initialized then 200 else 503) := by
  cases hinitialized : g.schemas.snapshot.initialized with
  | true =>
    refine answers_word rfl rfl (w := "ready") fun i => ?_
    rw [startedIn_ready, hinitialized]
    rfl
  | false =>
    refine answers_word rfl rfl (w := "not ready") fun i => ?_
    rw [startedIn_ready, hinitialized]
    rfl

end

/-- Whether a rebuild published its snapshot shows in the schemas that it leaves behind. -/
theorem initialized_of_rebuilt {before behind : Schema.Cache}
    {outcome : Except Schema.RebuildError Schema.Snapshot}
    (h : before.snapshot.initialized = false) (hrebuilt : Schema.Rebuilt before outcome behind) :
    behind.snapshot.initialized = outcome.toBool := by
  cases hrebuilt with
  | published hinitialized => exact hinitialized
  | failed object fault => exact h

/-- A gateway with usable settings does not start if the first answer of its token server is a
misfit. Otherwise it starts, whatever it is answered: it is alive, and it is ready iff the rebuild of
its schemas published a snapshot. -/
theorem starts_unless_misfit (s : Settings) (files : Files) (config : MappingConfig)
    (script : List Answer) (hlevel : partsOfLog.contains (upperCase s.logLevel) = false)
    (hconfig : s.mappingConfig files = .ok config) :
    let started := (State.start s files none).play script
    let prepared := (State.prepare s config none).play script
    (s.IsMisled script → started.result = .error .misfit) ∧
    (¬s.IsMisled script → ∃ fresh outcome g, prepared.result = .ok fresh ∧
      (fresh.rebuild.play prepared.unused).result = (outcome, g) ∧ started.result = .ok g ∧
      Schema.Rebuilt fresh.schemas outcome g.schemas ∧
      Answers g .health 200 ∧ Answers g .ready (if outcome.toBool then 200 else 503)) := by
  intro started prepared
  obtain ⟨hmisled, hfresh⟩ := prepared_of s config script
  have hstarted : started.result =
      prepared.result.bind fun g => settled (g.rebuild.play prepared.unused).result :=
    result_start hlevel hconfig script
  refine ⟨fun h => ?_, fun h => ?_⟩
  · rw [hstarted, show prepared.result = _ from hmisled h]
    rfl
  · obtain ⟨client, hclient⟩ := hfresh h
    rcases hplayed : ((State.fresh s config client).rebuild.play prepared.unused).result with
      ⟨outcome, g⟩
    have hrebuilt : Schema.Rebuilt (State.fresh s config client).schemas outcome g.schemas := by
      have hfirst := rebuilt_fresh s config client prepared.unused
      rwa [hplayed] at hfirst
    -- an object that fails to load is passed over, and no other failure is possible
    have hstarts : started.result = .ok g := by
      rw [hstarted, show prepared.result = _ from hclient]
      dsimp only [Except.bind]
      rw [hplayed]
      exact settled_of_rebuilt hrebuilt
    refine ⟨_, outcome, g, hclient, hplayed, hstarts, hrebuilt, answers_health g, ?_⟩
    rw [← initialized_of_rebuilt rfl hrebuilt]
    exact answers_ready g

/-! ## A demonstration -/

/-- A demonstration with a token server. -/
def demoSettings : Settings := { demo := true, tokenAddress := "http://am.test/token" }

/-- A request to look at a path. -/
def lookAt (path : String) : Incoming :=
  ⟨{ method := "GET", target := path }, ⟨"http", "localhost", path, []⟩, .broken⟩

theorem mappings_demo : demoSettings.mappingConfig [] = .ok .empty := rfl

theorem level_demo : partsOfLog.contains (upperCase demoSettings.logLevel) = false := by
  decide +kernel

theorem response_lookAt {g : State} {path : String} {route : Route} {status : Int}
    (h : Answers g route status)
    (htarget : Http.Target.ofText? path = some ⟨"http", "localhost", path, []⟩)
    (hroute : (lookAt path).route = .ok route) :
    ∃ response, g.answer (lookAt path).request .broken = .done (some response, g) ∧
      response.status = status :=
  h (lookAt path) rfl htarget hroute rfl

/-- A demonstration starts while its token server is out of order. It is alive and not ready. -/
theorem demo_starts : ∃ g,
    ((State.start demoSettings [] none).play [.response 503 "out of order"]).result = .ok g ∧
      (∃ response, g.answer (lookAt "/health").request .broken = .done (some response, g) ∧
        response.status = 200) ∧
      ∃ response, g.answer (lookAt "/ready").request .broken = .done (some response, g) ∧
        response.status = 503 := by
  have htold : ¬demoSettings.IsMisled [.response 503 "out of order"] := fun h =>
    absurd h.2.1 (by decide)
  obtain ⟨fresh, outcome, g, hfresh, hrebuild, hstarted, -, hhealth, hready⟩ :=
    (starts_unless_misfit demoSettings [] .empty [.response 503 "out of order"] level_demo
      mappings_demo).2 htold
  have hfailed : outcome.toBool = false := by
    let prepared := (State.prepare demoSettings .empty none).play [.response 503 "out of order"]
    have hbuilt : prepared.result.map (fun fresh =>
        (fresh.rebuild.play prepared.unused).result.1.toBool) = .ok false := rfl
    rw [show prepared.result = .ok fresh from hfresh] at hbuilt
    have hsame : (fresh.rebuild.play prepared.unused).result.1.toBool = outcome.toBool :=
      congrArg (fun p => p.1.toBool) hrebuild
    exact hsame.symm.trans (Except.ok.inj hbuilt)
  rw [hfailed] at hready
  exact ⟨g, hstarted,
    response_lookAt hhealth (Http.Target.ofText?_of_parts (by decide +kernel)) rfl,
    response_lookAt hready (Http.Target.ofText?_of_parts (by decide +kernel)) rfl⟩

/-- The demonstration does not start if its token server answers with a page. -/
theorem demo_misled :
    partsOfLog.contains (upperCase demoSettings.logLevel) = false ∧
      demoSettings.mappingConfig [] = .ok .empty ∧
      ∀ g, ((State.start demoSettings [] none).play [.response 200 "<html>"]).result ≠ .ok g := by
  have hresult : ((State.start demoSettings [] none).play [.response 200 "<html>"]).result =
      .error .misfit := rfl
  refine ⟨level_demo, mappings_demo, fun g hg => ?_⟩
  rw [hresult] at hg
  cases hg

end Gateway

end ScimBridge
