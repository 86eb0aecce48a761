import ScimBridge.Gateway.Discovery
import ScimBridge.Gateway.Settings
import ScimBridge.Net.Address
import ScimBridge.Schema.Source
import ScimBridge.Service.Resources

/-!
# The running gateway

A gateway keeps its settings, the networks of trusted proxies, the published schemas and where they
come from, and one client of the backend. It also remembers where it last looked for the keys of the
issuer.
-/

namespace ScimBridge

namespace Gateway

/-- Where property definitions come from: the backend, or a saved document. -/
inductive SchemaSource where
  | backend
  | document (saved : Value)

/-- The definitions of a source. -/
def SchemaSource.definitions : SchemaSource →
    Schema.Source (StateT Backend.Client Backend.Exchange)
  | .backend => Schema.backendSource
  | .document saved => Schema.savedSource saved

/-- A running gateway. -/
structure State where
  settings : Settings
  peers : List Net.Network
  setup : Service.Setup
  schemas : Schema.Cache
  source : SchemaSource
  client : Backend.Client
  keys : Option String := none

/-- Handling a request: the gateway may change and the backend may be asked, and there may be no
result. -/
abbrev Handling := ExceptT Fault (StateT State Backend.Exchange)

namespace Handling

/-- Go on with a result that may be missing. -/
def settle {α : Type} (x : Except Fault α) : Handling α := ExceptT.mk (pure x)

/-- Go on unless there is a fault. -/
def stopAt (fault : Option Fault) : Handling Unit :=
  match fault with
  | some e => throw e
  | none => pure ()

/-- An operation of the service with the gateway's client. -/
def service {α : Type} (op : Service.Operation α) : Handling α := ExceptT.mk do
  let g ← get
  let (outcome, client) ← (op.run g.client : Backend.Exchange _)
  set { g with client }
  return outcome.mapError Fault.ofService

end Handling

/-- Rebuild the published schemas. -/
def State.rebuild (g : State) :
    Backend.Exchange (Except Schema.RebuildError Schema.Snapshot × State) := do
  let ((outcome, schemas), client) ← (g.schemas.rebuild g.source.definitions).run g.client
  return (outcome, { g with schemas, client })

/-! ## Starting -/

/-- Why a gateway does not start. -/
inductive StartError where
  | mappings (e : MappingError)
  | schemas (e : Schema.RebuildError)
  /-- The token server answered with something unusable. -/
  | misfit
  /-- The word for how much is logged means something else. -/
  | logLevel (word : String)

/-- Words that name parts of the log itself, none of which is a level. Any other word that is no
level stands for the usual one. -/
def partsOfLog : List String := ["BASIC_FORMAT", "_STYLES"]

/-- A client with the service's own token, if a token server is named. A token server that refuses
is asked again later. -/
def openClient (s : Settings) : Backend.Exchange (Except StartError Backend.Client) := do
  let client := Backend.Client.ofVariables s.backendAddress []
  if s.tokenAddress = "" then return .ok client
  let (outcome, client) ←
    (Backend.Token.authenticate ⟨s.tokenAddress, s.clientId, s.clientSecret⟩).run.run client
  match outcome with
  | .error (.token _) | .error (.unreadable _) | .error .misfit => return .error .misfit
  | _ => return .ok client

/-- The lines about a gateway that starts. -/
def startLines (g : State) : List String :=
  ["[flask_app] Mode=" ++ Loading.modeName g.settings.demo,
   "[flask_app] SCIM 2.0 API registered at /scim/v2 ("
    ++ toString g.schemas.snapshot.documents.length ++ " schemas)"]
  ++ (if g.settings.demo then
    ["[flask_app] WARNING: Demo mode active - do not deploy with demo credentials"] else [])

/-- A gateway before its schemas are built. Beside a saved document there is no use for a service
token. -/
def State.prepare (s : Settings) (config : MappingConfig) (document : Option Value) :
    Backend.Exchange (Except StartError State) := do
  let client ← match document with
    | some _ => pure (.ok (Backend.Client.ofVariables s.backendAddress []))
    | none => openClient s
  return client.map fun client =>
    { settings := s
      peers := Net.Network.listOf s.trustedPeers
      setup := ⟨⟨s.userObject, s.roleObject⟩, config⟩
      schemas := { objects := s.managedObjects, config }
      source := match document with
        | some saved => .document saved
        | none => .backend
      client }

/-- Start a gateway. It also starts when its schemas cannot be loaded; it is not ready then. -/
def State.start (s : Settings) (files : Files) (document : Option Value) :
    Backend.Exchange (Except StartError State) := do
  let level := upperCase s.logLevel
  if partsOfLog.contains level then return .error (.logLevel level)
  match s.mappingConfig files with
  | .error e => return .error (.mappings e)
  | .ok config =>
    match ← State.prepare s config document with
    | .error e => return .error e
    | .ok g =>
      let (outcome, g) ← g.rebuild
      match outcome with
      | .ok _ | .error (.load _ _) => return .ok g
      | .error e => return .error (.schemas e)

end Gateway

end ScimBridge
