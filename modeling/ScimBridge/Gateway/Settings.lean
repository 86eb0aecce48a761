import ScimBridge.Mapping.Source
import ScimBridge.Schema.Cache
import ScimBridge.Text.Case

/-!
# Settings of a deployment

Settings come from variables; secrets come from mounted files first and from variables where there
is no such file. A demonstration has defaults for what a deployment must say itself. Loading reports
what it takes from where, up to the point where it fails.
-/

namespace ScimBridge

namespace Gateway

/-- The networks of the machine itself. -/
def localNetworks : String := "127.0.0.1/32,::1/128"

/-- The settings of a deployment. -/
structure Settings where
  demo : Bool
  trustedPeers : String := localNetworks
  logLevel : String := "INFO"
  backendAddress : String := ""
  userObject : String := "alpha_user"
  roleObject : String := "alpha_role"
  tokenAddress : String := ""
  clientId : String := "scim-gateway"
  clientSecret : String := ""
  publicAddress : String := ""
  issuer : String := ""
  keysAddress : String := ""
  adminToken : String := ""
  mappings : String := ""
  mappingsFile : String := ""
  deriving DecidableEq, Repr

namespace Settings

/-- The objects of users and of groups. -/
def managedObjects (s : Settings) : Schema.ManagedObjects :=
  [(.user, s.userObject), (.group, s.roleObject)]

/-- Whether bearer tokens are validated here: an issuer is named. -/
def validatesTokens (s : Settings) : Bool := s.issuer ≠ ""

/-- Where the keys of the issuer are. -/
def issuerKeys (s : Settings) : String :=
  if s.keysAddress ≠ "" then s.keysAddress
  else dropEnd '/' s.issuer ++ "/protocol/openid-connect/certs"

/-- The mappings of the deployment. -/
def mappingConfig (s : Settings) (files : Files) : Except MappingError MappingConfig :=
  MappingConfig.ofSettings files s.mappings s.mappingsFile

end Settings

/-- Why settings cannot be loaded. -/
inductive SettingsError where
  | missingVariable (name : String)
  | missingPeers
  deriving DecidableEq, Repr

/-- The wording of an error. -/
def SettingsError.message : SettingsError → String
  | .missingVariable name => "Environment variable " ++ name ++ " is required in production mode."
  | .missingPeers => "TRUSTED_PROXY_IPS is required when DEMO_MODE is false."

/-- Loading: lines are reported and an error may end it. -/
abbrev Loading := ExceptT SettingsError (StateM (List String))

namespace Loading

/-- Report a line. -/
def say (text : String) : Loading Unit := modify (· ++ [text])

/-- Variables by name. -/
abbrev Variables := Fields String

/-- The value of a variable, unless it is empty. -/
def filled? (env : Variables) (name : String) : Option String := (env.get? name).filter (· ≠ "")

/-- The trimmed value of a variable, or the usual value where the variable is absent. -/
def trimmed (env : Variables) (name usual : String) : String :=
  trimText ((env.get? name).getD usual)

/-- A text, or another one where it is empty. -/
def orElse (s other : String) : String := if s = "" then other else s

/-- Whether a variable says that this is a demonstration. -/
def isDemo (env : Variables) : Bool := lowered (trimmed env "DEMO_MODE" "false") == "true"

/-- A variable that only a demonstration may leave out. -/
def required (env : Variables) (demo : Bool) (name usual : String) : Loading String :=
  match filled? env name with
  | some v => return v
  | none =>
    if demo then do
      say ("[demo-mode] Using default for " ++ name)
      return usual
    else throw (.missingVariable name)

/-- The peers whose forwarding headers are trusted. Tests need not name any. -/
def trustedPeers (env : Variables) (demo : Bool) : Loading String :=
  match filled? env "TRUSTED_PROXY_IPS" with
  | some v => return v
  | none =>
    if demo || env.has "PYTEST_CURRENT_TEST" then return localNetworks
    else throw .missingPeers

/-- A secret: the trimmed text of its file or, where that is empty or absent, its variable. -/
def secret (env : Variables) (secrets : Files) (name variableName : String) : Loading String :=
  let mounted := ((secrets.read name).toOption.map trimText).filter (· ≠ "")
  match mounted, filled? env variableName with
  | some v, _ => do
    say ("[settings] ✓ Loaded " ++ name ++ " from /run/secrets")
    return v
  | none, some v => do
    say ("[settings] ✓ Loaded " ++ variableName ++ " from environment (fallback)")
    return v
  | none, none => return ""

/-- The name of a mode. -/
def modeName (demo : Bool) : String := if demo then "DEMO" else "PRODUCTION"

/-- The lines about settings that were loaded. -/
def announce (s : Settings) : Loading Unit := do
  say ("[settings] Mode=" ++ modeName s.demo ++ "; idm=" ++ s.backendAddress ++ "; objects="
    ++ s.userObject ++ "," ++ s.roleObject)
  if s.demo then
    say "[settings] WARNING: Demo credentials in use. Do not deploy with these defaults."

/-- The settings that variables and secrets give. -/
def settings (env : Variables) (secrets : Files) : Loading Settings := do
  let demo := isDemo env
  let backendAddress ← required env demo "IDM_BASE_URL" "http://localhost:8080"
  let trustedPeers ← trustedPeers env demo
  let clientSecret ← secret env secrets "idm_service_client_secret" "IDM_SERVICE_CLIENT_SECRET"
  let adminToken ← secret env secrets "schema_admin_token" "SCHEMA_ADMIN_TOKEN"
  let s : Settings := {
    demo, trustedPeers, adminToken
    logLevel := orElse (upperCase (trimmed env "LOG_LEVEL" "INFO")) "INFO"
    backendAddress := dropEnd '/' backendAddress
    userObject := orElse (trimmed env "IDM_MANAGED_USER_OBJECT" "") "alpha_user"
    roleObject := orElse (trimmed env "IDM_MANAGED_ROLE_OBJECT" "") "alpha_role"
    tokenAddress := trimmed env "IDM_TOKEN_URL" ""
    clientId := trimmed env "IDM_SERVICE_CLIENT_ID" "scim-gateway"
    clientSecret := if clientSecret = "" ∧ demo then "demo-service-secret" else clientSecret
    publicAddress := dropEnd '/' (trimmed env "SCIM_SERVER_BASE_URL" "")
    issuer := trimmed env "OAUTH_ISSUER" ""
    keysAddress := trimmed env "OAUTH_JWKS_URL" ""
    mappings := (env.get? Mapping.documentVariable).getD ""
    mappingsFile := (env.get? Mapping.fileVariable).getD "" }
  announce s
  return s

end Loading

/-- Load settings: what came of it, and the lines that were reported. -/
def Settings.load (env : Loading.Variables) (secrets : Files) :
    Except SettingsError Settings × List String :=
  (Loading.settings env secrets).run.run []

end Gateway

end ScimBridge
