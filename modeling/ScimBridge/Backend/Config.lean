import ScimBridge.Backend.Client

/-!
# The backend's configuration

One document describes all managed objects of the backend. Each entry may hold the definitions of
its properties, in its schema or directly.
-/

namespace ScimBridge

namespace Backend

/-- The configuration of managed objects. -/
abbrev ManagedConfig := Fields Value

namespace ManagedConfig

/-- Where the configuration is. -/
def path : String := "/openidm/config/managed"

/-- The first entry of a name in a configuration; an entry without a name has the name null. -/
def find? (config : ManagedConfig) (name : Value) : Option (Fields Value) :=
  match config.get? "objects" with
  | some (.array items) =>
    (items.filterMap Value.members?).find? fun e => (e.get? "name").getD .null == name
  | _ => none

/-- The property definitions of an entry. -/
def properties? (entry : Value) : Option (Fields Value) :=
  let inSchema := ((entry.get? "schema").bind fun schema => schema.get? "properties").bind
    Value.members?
  inSchema.or ((entry.get? "properties").bind Value.members?)

/-- Fetch the configuration with the service's own token, if the backend has one. -/
def fetch : Action (Option ManagedConfig) := do
  let found ← tryCatch (some <$> request "GET" path {} none) fun e =>
    match e with
    | .api status _ _ => if status = 404 then pure none else throw e
    | _ => throw e
  match found with
  | none => return none
  | some (_, text) => return (← readDocument text).members?

/-- Fetch the entry of a managed object. -/
def fetchEntry (name : Value) : Action (Option (Fields Value)) := do
  return (← fetch).bind fun config => find? config name

end ManagedConfig

end Backend

end ScimBridge
