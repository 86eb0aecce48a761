import ScimBridge.Backend.Error
import ScimBridge.Backend.Exchange
import ScimBridge.Json.Defect
import ScimBridge.Text.Integer
import ScimBridge.Text.Split

/-!
# The client of the backend

Every request carries a bearer token: the caller's, if there is one, else the service's own. The
service token is stored with a deadline; behind the deadline it is renewed from the stored
credentials, if there are any, and is never sent again.
-/

namespace ScimBridge

namespace Backend

/-- The service account at the token server. -/
structure Credentials where
  tokenUrl : String
  clientId : String
  clientSecret : String
  deriving DecidableEq, Repr

/-- The client's state. The token is null before there is one. -/
structure Client where
  baseUrl : String
  token : Value := .null
  deadline : Option Instant := none
  credentials : Option Credentials := none
  now : Instant := 0

/-- A computation with requests that may change the client and may fail. What it has changed before
it fails stays changed. -/
abbrev Action := ExceptT BackendError (StateT Client Exchange)

/-- A client for a server; slashes at the end of its address do not count. -/
def Client.ofAddress (address : String) : Client := { baseUrl := dropEnd '/' address }

/-- Where the backend is unless a deployment says otherwise. -/
def usualAddress : String := "http://idm:8080"

/-- A client for an address or, where that is empty, for the one that a variable gives. -/
def Client.ofVariables (address : String) (env : Fields String) : Client :=
  .ofAddress (if address ≠ "" then address else (env.get? "IDM_BASE_URL").getD usualAddress)

/-- Whether a service token is stored. -/
def Client.isAuthenticated (c : Client) : Bool :=
  match c.token with
  | .null => false
  | _ => true

/-- Time goes by. -/
def Client.advance (c : Client) (span : Int) : Client := { c with now := c.now + span }

/-- Answer a request or fail with a text in front of the connection's own. -/
def transmit (complaint : String) (request : Request) : Action (Int × String) := do
  match ← (Exchange.send request : Exchange Answer) with
  | .response status text => return (status, text)
  | .failure text => throw (.api 0 request.url (complaint ++ ": " ++ text))

/-- The value of a document in an answer. -/
def readDocument (text : String) : Action Value :=
  match Value.ofDocument text with
  | .ok v => pure v
  | .error _ => throw (.unreadable (Document.complaint text))

namespace Token

/-- Seconds that a token lives where the token server does not say. -/
def usualLifetime : Value := .int 60

/-- The request for a service token. -/
def request (c : Credentials) : Request :=
  { method := "POST"
    url := c.tokenUrl
    form := some
      [("grant_type", .string "client_credentials"),
       ("client_id", .string c.clientId),
       ("client_secret", .string c.clientSecret)] }

/-- The token and its lifetime in seconds that a token server's answer holds. -/
def ofAnswer (v : Value) : Except TokenFault (Value × Int) :=
  match v with
  | .object members =>
    match Fields.get? members TokenFault.tokenName with
    | none => .error .noToken
    | some token =>
      let lifetime := (Fields.get? members "expires_in").getD usualLifetime
      (lifetime.toWhole.mapError TokenFault.lifetime).map fun seconds => (token, seconds)
  | v => .error (.notAnObject v.kindName)

/-- Seconds before the end of a token's life at which it is renewed, and the least time for which it
is kept. -/
def margin : Int := 10

/-- Get a token from the token server. -/
def fetch (c : Credentials) : Action (Value × Int) := do
  let (status, text) ← transmit "Token request failed" (request c)
  if status ≠ 200 then throw (.api status c.tokenUrl text)
  match ofAnswer (← readDocument text) with
  | .ok found => return found
  | .error fault => throw (.token fault)

/-- Store a token for a span of time. The token is stored even if there is no such deadline. -/
def store (token : Value) (span : Except TokenFault Int) : Action Unit := do
  modify fun client => { client with token }
  let now := (← get).now
  match span.bind fun span => (now.after span).mapError .deadline with
  | .ok deadline => modify fun client => { client with deadline := some deadline }
  | .error fault => throw (.token fault)

/-- Renew the service token. -/
def renew (c : Credentials) : Action Unit := do
  let (token, seconds) ← fetch c
  store token (.ok (max (seconds - margin) margin * Instant.perSecond))

/-- The stored token. -/
def stored : Action Value := do return (← get).token

/-- A service token that may be sent now. -/
def current : Action Value := do
  let client ← get
  let unusable? : Option String :=
    match client.token.filled, client.deadline with
    | true, some deadline =>
      if deadline ≤ client.now then
        some "Service token expired and no credentials to renew it"
      else none
    | _, _ => some "Not authenticated - call authenticate_service_account first"
  match unusable?, client.credentials with
  | none, _ => return client.token
  | some _, some c => do
    renew c
    stored
  | some complaint, none => throw (.api 401 "" complaint)

/-- Take a service account into use. -/
def authenticate (c : Credentials) : Action Value := do
  modify fun client => { client with credentials := some c }
  renew c
  stored

/-- Use a given token for a number of seconds, without credentials. -/
def useStatic (token seconds : Value) : Action Unit := do
  modify fun client => { client with credentials := none }
  store token ((Instant.spanOf seconds).mapError .lifetime)

end Token

/-- The version of the backend's interface that every request asks for. -/
def apiVersion : String := "resource=1.0"

/-- The headers of a request with a bearer token. -/
def bearerHeaders (bearer : Value) (extra : Fields Value) : Fields Value :=
  let authorized := extra.put "Authorization" (.string ("Bearer " ++ bearer.shown))
  (authorized.put "Accept-API-Version" (.string apiVersion)).putNew "Accept"
    (.string "application/json")

/-- A text that is given and not empty. -/
def filledText? (text : Option String) : Option String := text.filter (· ≠ "")

/-- The token that a request carries: the caller's, unless it is empty. -/
def bearerFor (token : Option String) : Action Value :=
  match filledText? token with
  | some t => pure (.string t)
  | none => Token.current

/-- What a request says besides its address. -/
structure Content where
  params : Option Value := none
  json : Option Value := none
  headers : Fields Value := []

/-- Send a request to the backend; an error status is an error. -/
def request (method path : String) (content : Content) (token : Option String) :
    Action (Int × String) := do
  let url := (← get).baseUrl ++ path
  let bearer ← bearerFor token
  let (status, text) ← transmit "Request failed"
    { method, url
      params := content.params
      json := content.json
      headers := some (bearerHeaders bearer content.headers) }
  if 400 ≤ status then throw (.api status url text)
  return (status, text)

/-- Send a request to the backend and read the document in its answer. -/
def requestDocument (method path : String) (content : Content) (token : Option String) :
    Action Value := do
  let (_, text) ← request method path content token
  readDocument text

end Backend

end ScimBridge
