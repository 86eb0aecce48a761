import ScimBridge.Gateway.Settings
import ScimBridge.Text.Integer

/-!
# Worker processes

The service runs in several worker processes. Their number and limits come from variables; each
worker notes in its log which secrets it will find.
-/

namespace ScimBridge

namespace Worker

/-- How the worker processes are run. -/
structure Plan where
  address : String
  workers : Int
  threads : Int
  timeout : Int
  logLevel : String
  deriving DecidableEq, Repr

/-- What a worker process runs. -/
def application : String := "scim_gateway.flask_app:create_app()"

/-- The name of the stream that logs go to. -/
def logStream : String := "-"

/-- The plan that variables give; none if a number is no whole number. -/
def Plan.ofVariables? (env : Fields String) : Option Plan := do
  let text (name usual : String) : String := (env.get? name).getD usual
  let workers ← (readWhole (text "GUNICORN_WORKERS" "2")).toOption
  let threads ← (readWhole (text "GUNICORN_THREADS" "4")).toOption
  let timeout ← (readWhole (text "GUNICORN_TIMEOUT" "60")).toOption
  return {
    address := text "GUNICORN_BIND" "0.0.0.0:8000"
    workers, threads, timeout
    logLevel := lowerCase (text "LOG_LEVEL" "info") }

/-- A line of a log. -/
inductive Note where
  | info (text : String)
  | warning (text : String)
  deriving DecidableEq, Repr

/-- The secrets that a worker may use. -/
def secretNames : List String := ["idm_service_client_secret", "schema_admin_token"]

/-- The notes about mounted secrets; there may be no mount at all. -/
def secretNotes (secrets : Option Files) : List Note :=
  match secrets with
  | none => [.info "No /run/secrets mount; secrets come from the environment"]
  | some files =>
    .info ("Found " ++ toString files.length ++ " secrets in /run/secrets") ::
      (secretNames.filter fun name => !Fields.has files name).map fun name =>
        .info ("Secret '" ++ name ++ "' not mounted; falling back to environment")

/-- Whether the operators' token is given anywhere. -/
def hasAdminToken (env : Fields String) (secrets : Option Files) : Bool :=
  (Gateway.Loading.filled? env "SCHEMA_ADMIN_TOKEN").isSome
    || (secrets.getD []).has "schema_admin_token"

/-- The notes of a worker that starts. -/
def startNotes (env : Fields String) (secrets : Option Files) : List Note :=
  let demo := lowered ((env.get? "DEMO_MODE").getD "false") == "true"
  (if demo then [.warning "DEMO_MODE=true - demo service credentials may be in use"] else [])
    ++ secretNotes secrets
    ++ (if hasAdminToken env secrets then []
      else [.info "Schema admin endpoints disabled (no SCHEMA_ADMIN_TOKEN)"])

end Worker

end ScimBridge
