import ScimBridge.Gateway.Access
import ScimBridge.Gateway.Forwarding
import ScimBridge.Gateway.Route
import ScimBridge.Gateway.State

/-!
# Answering requests

A request is first checked for its forwarding headers, then routed. Operators show their token,
callers of users and groups theirs; then the route is handled. Responses on the routes of the
protocol have its content type and repeat the correlation identifier of the request.
-/

namespace ScimBridge

namespace Gateway

open Http

/-- A request that is being handled: what it is, where it leads and what its token is worth. -/
structure Incoming where
  request : Request
  target : Target
  verdict : Verdict

/-- A response with a document. -/
def reply (status : Int) (v : Value) : Response := ⟨status, .json, .document v, none, none⟩

/-- A response with a word. -/
def wordReply (status : Int) (word : String) : Response := ⟨status, .plain, .text word, none, none⟩

/-- A response without content. -/
def emptyReply : Response := ⟨204, .html, .text "", none, none⟩

namespace Incoming

/-- The address under which the service answers: the configured one, or the one it was asked at. -/
def base (i : Incoming) : Handling String := do
  let configured := (← get).settings.publicAddress
  if configured ≠ "" then return configured
  match originOf? i.request i.target with
  | some origin => return origin ++ "/scim/v2"
  | none => throw .unexpected

/-- Use the keys of the issuer, which are looked for anew where their address has changed. -/
def useKeys : Handling Unit :=
  modify fun g => { g with keys := some g.settings.issuerKeys }

/-- The bearer token of the request, after its validation. -/
def caller (i : Incoming) : Handling String := do
  let token ← Handling.settle (bearerToken (i.request.header "Authorization"))
  if (← get).settings.validatesTokens then
    useKeys
    Handling.stopAt i.verdict.fault?
  return token

/-- The document in the body, if there is one that says something. -/
def content? (i : Incoming) : Except Fault (Option Value) :=
  if i.request.isCutShort then .error (.denied .unreadable)
  else match i.request.document with
    | .error .beyondLimits => .error .unexpected
    | .error .malformed | .ok .null => .ok none
    | .ok v => .ok (some v)

/-- The body of a search: without one, everything is asked for. -/
def searchQuery (i : Incoming) : Except Fault (Fields Value) := do
  match ← i.content? with
  | none => return []
  | some (.object members) =>
    let asked := match Fields.get? members "schemas" with
      | none | some .null => true
      | some (.array items) => items.any fun v => v.text? == some Urn.searchRequest
      | some _ => false
    if asked then .ok members
    else .error (.refusal 400 ("schemas must include " ++ Urn.searchRequest) "invalidSyntax")
  | some _ => .error (.refusal 400 "Search request body must be a JSON object" "invalidSyntax")

/-- The document in the body, which is needed here. -/
def document (i : Incoming) : Except Fault Value := do
  match ← i.content? with
  | none => .error (.refusal 400 "Request body is not valid JSON" "invalidSyntax")
  | some v => .ok v

/-- The revision that the request depends on. -/
def revision (i : Incoming) : Option Value :=
  (revisionOf (i.request.header "If-Match")).map .string

/-- The response to a creation: it says where the new resource is. -/
def created (resource : Value) : Except Fault Response :=
  match (resource.get? "meta").bind fun m => m.get? "location" with
  | none => .error .unexpected
  | some location =>
    let said := location.shown
    if breaksLine said then .error .unexpected
    else .ok { reply 201 resource with location := some said }

/-- List the resources that a query asks for. -/
def list (i : Incoming) (kind : Service.Kind) (token : String) (query : Fields Value) :
    Handling Response := do
  let setup := (← get).setup
  let base ← i.base
  return reply 200 (← Handling.service (setup.list kind query ⟨some token, base⟩))

/-- Handle a request for the resources of a kind. -/
def collection (i : Incoming) (kind : Service.Kind) : Handling Response := do
  let token ← i.caller
  let setup := (← get).setup
  match Method.ofWord i.request.method with
  | .post =>
    let body ← Handling.settle i.document
    let base ← i.base
    let resource ← Handling.service (setup.create kind body ⟨some token, base⟩)
    Handling.settle (created resource)
  | _ => i.list kind token i.target.query

/-- Handle a search for resources of a kind. -/
def search (i : Incoming) (kind : Service.Kind) : Handling Response := do
  let token ← i.caller
  i.list kind token (← Handling.settle i.searchQuery)

/-- Handle a request for one resource. -/
def resource (i : Incoming) (kind : Service.Kind) (id : String) : Handling Response := do
  let token ← i.caller
  let setup := (← get).setup
  match Method.ofWord i.request.method with
  | .put =>
    let body ← Handling.settle i.document
    let base ← i.base
    return reply 200
      (← Handling.service (setup.replace kind id body i.revision ⟨some token, base⟩))
  | .patch =>
    let body ← Handling.settle i.document
    let base ← i.base
    return reply 200
      (← Handling.service (setup.patch kind id body i.revision ⟨some token, base⟩))
  | .delete =>
    Handling.service (setup.delete kind id i.revision ⟨some token, ""⟩)
    return emptyReply
  | _ =>
    let base ← i.base
    return reply 200 (← Handling.service (setup.get kind id ⟨some token, base⟩))

/-- What operators see of the published schemas. -/
def schemaStatus (s : Schema.Snapshot) : Fields Value :=
  [("initialized", .bool s.initialized),
   ("count", .int s.documents.length),
   ("schemas", .texts s.ids)]

/-- Rebuild the schemas for an operator. -/
def schemaRefresh : Handling Response := do
  let (outcome, g) ← ((← get).rebuild : Backend.Exchange _)
  set g
  let status := schemaStatus g.schemas.snapshot
  match outcome with
  | .ok _ => return reply 200 (.object (status ++ [("refreshed", .bool true)]))
  | .error (.load object fault) =>
    return reply 503 (.object (status ++
      [("refreshed", .bool false), ("error", .string (fault.message object))]))
  | .error _ => throw .unexpected

/-- Handle a route. -/
def handle (i : Incoming) (route : Route) : Handling Response := do
  let snapshot := (← get).schemas.snapshot
  let answer (x : Except Fault Value) : Handling Response := reply 200 <$> Handling.settle x
  match route with
  | .health => return wordReply 200 "ok"
  | .ready =>
    return if snapshot.initialized then wordReply 200 "ready" else wordReply 503 "not ready"
  | .schemaStatus => return reply 200 (.object (schemaStatus snapshot))
  | .schemaRefresh => schemaRefresh
  | .providerConfig => return reply 200 (Discovery.providerConfig (← i.base))
  | .resourceTypes =>
    let types := Discovery.resourceTypes (← i.base) snapshot.hasEnterprise
    answer (Discovery.pageOf (types.map (·.document)) i.target.query)
  | .resourceType name =>
    answer (Discovery.resourceType (← i.base) snapshot.hasEnterprise name)
  | .schemas =>
    let s ← Handling.settle (Discovery.published snapshot)
    let base ← i.base
    answer (Discovery.pageOf (s.list.map fun d => d.toValue base) i.target.query)
  | .schema id =>
    let s ← Handling.settle (Discovery.published snapshot)
    match s.get? (Urn.ofIdentifier (some id)) with
    | none => throw (Discovery.missingSchema id)
    | some d => return reply 200 (d.toValue (← i.base))
  | .collection kind => i.collection kind
  | .search kind => i.search kind
  | .resource kind id => i.resource kind id
  | .asset => throw (.denied .notFound)

/-- Handle a request whose route is known: forwarding headers and the tokens of operators are
checked first. -/
def checked (i : Incoming) (route : Except Denial Route) : Handling Response := do
  let g ← get
  Handling.stopAt ((forwardingDenial? g.peers i.request).map .denied)
  let route ← Handling.settle (route.mapError .denied)
  if route.isOperators then
    Handling.stopAt ((operatorDenial? g.settings.adminToken
      (i.request.header "Authorization")).map .denied)
  i.handle route

/-- The response on a route of the protocol. -/
def onService (i : Incoming) (r : Response) : Response :=
  let correlation := i.request.header "X-Correlation-Id"
  { r with
    media := if r.media = .json then .scim else r.media
    correlation := if correlation = "" then none else some correlation }

end Incoming

namespace Incoming

/-- The route of a request, or why there is none. -/
def route (i : Incoming) : Except Denial Route :=
  let method := Method.ofWord i.request.method
  match hostDenial? i.request i.target with
  | some denial => .error denial
  | none =>
    if asksForSocket i.request i.target then .error (Route.socketDenial i.target.path method)
    else Route.find i.target.path method

/-- The response of a gateway and the gateway behind it. -/
def respond (i : Incoming) (g : State) : Backend.Exchange (Response × State) := do
  let (outcome, g) ← (i.checked i.route).run.run g
  let response := match outcome with
    | .ok r => r
    | .error fault => fault.response i.target.path
  let response := match i.route with
    | .ok r => if r.isService then i.onService response else response
    | .error _ => response
  return (response.toMethod (Method.ofWord i.request.method), g)

end Incoming

/-- Answer a request. There is no response to a request that cannot be sent or whose target is no
address, and none that names an address without an ASCII form. -/
def State.answer (g : State) (request : Request) (verdict : Verdict) :
    Backend.Exchange (Option Response × State) := do
  match (Target.ofText? request.target).filter fun _ => request.isSendable with
  | none => return (none, g)
  | some target =>
    let (response, g) ← (Incoming.mk request target verdict).respond g
    return (response.sent?, g)

/-- The key servers that a request has made the gateway turn to. -/
def State.newKeys (before behind : State) : List String :=
  if before.keys = behind.keys then [] else behind.keys.toList

end Gateway

end ScimBridge
