import ScimBridge.Json.Writer
import ScimBridge.Mapping.Source
import ScimBridge.SchemaTool.Arguments
import ScimBridge.Schema.Source
import ScimBridge.Service.Resources

/-!
# Commands of the schema tool

The tool translates a filter, or compiles the schemas of a saved configuration or of a live backend.
Options may come before the name of the command or behind it, each in its own place; variables give
the defaults.
-/

namespace ScimBridge

namespace SchemaTool

/-- What schemas are compiled for. -/
structure Targets where
  objects : Schema.ManagedObjects
  baseUrl : String

/-- What the tool is asked to do. -/
inductive Command where
  | translate (filter : String) (kind : Service.Kind)
  | compile (path : String) (targets : Targets)
  | fetch (address : String) (token : Option String) (targets : Targets)

/-- A command and the file with its mappings. -/
structure Invocation where
  mappings : Option String
  command : Command

/-- The options in front of all commands. -/
def frontGrammar : Grammar := ⟨[{ name := "--mappings" }], false⟩

/-- The options that say what schemas are compiled for. -/
def targetOptions : List OptionRule :=
  [{ name := "--user-object" }, { name := "--role-object" }, { name := "--base-url" }]

/-- What follows the name of a command. -/
def grammarOf? (name : String) : Option Grammar :=
  match name with
  | "translate" =>
    some ⟨[{ name := "--resource", choices := some (Service.Kind.all.map Service.Kind.text) }],
      true⟩
  | "compile" => some ⟨targetOptions, true⟩
  | "fetch" => some ⟨targetOptions ++ [{ name := "--idm-url" }, { name := "--token" }], false⟩
  | _ => none

/-- The value of an option, else that of a variable, else the usual one. -/
def settled (env : Fields String) (found : Found) (option variableName usual : String) : String :=
  (found.values.get? option).getD ((env.get? variableName).getD usual)

/-- What schemas are compiled for. -/
def targetsOf (env : Fields String) (found : Found) : Targets :=
  { objects :=
      [(.user, settled env found "--user-object" "IDM_MANAGED_USER_OBJECT" "alpha_user"),
       (.group, settled env found "--role-object" "IDM_MANAGED_ROLE_OBJECT" "alpha_role")]
    baseUrl := settled env found "--base-url" "SCIM_SERVER_BASE_URL" "/scim/v2" }

/-- The command of a name with the words behind it. -/
def commandOf (env : Fields String) (name : String) (found : Found) : Command :=
  match name with
  | "translate" =>
    .translate (found.argument.getD "")
      (((found.values.get? "--resource").bind Service.Kind.ofText?).getD .user)
  | "compile" => .compile (found.argument.getD "") (targetsOf env found)
  | _ =>
    .fetch (settled env found "--idm-url" "IDM_BASE_URL" "http://localhost:8080")
      ((found.values.get? "--token").or (env.get? "IDM_TOKEN")) (targetsOf env found)

/-- What a command line says. Without a command, help is wanted. -/
def Invocation.read (env : Fields String) (words : List String) : Except Stop Invocation :=
  match frontGrammar.marks? words with
  | none => .error .invalid
  | some marks => do
    let (front, rest) ← frontGrammar.readFront marks {}
    match rest with
    | [] => .error (if front.leftover then .invalid else .help)
    | name :: more =>
      match grammarOf? name with
      | none => .error .invalid
      | some g =>
        let found ← g.read more
        if front.leftover || found.leftover then .error .invalid
        else .ok ⟨front.values.get? "--mappings", commandOf env name found⟩

/-- What a command gives: an exit code, a text and perhaps a complaint. -/
structure Result where
  exit : Nat
  output : String := ""
  complaint : Option String := none
  deriving DecidableEq, Repr

/-- A failure of a command. -/
def Result.failure (name text : String) : Result :=
  { exit := 1, complaint := some ("[" ++ name ++ "] Error: " ++ text) }

/-- A line that a command prints. -/
def Result.line (text : String) : Result := { exit := 0, output := text ++ "\n" }

/-- Why a command has no result at all. -/
inductive Breakdown where
  | rebuild (e : Schema.RebuildError)
  | misfit

/-- The result of a command: the backend may be asked. -/
abbrev Run := Backend.Exchange (Except Breakdown Result)

/-- Go on with the mappings that are wanted. -/
def withMappings (name : String) (mappings : Except MappingError MappingConfig)
    (go : MappingConfig → Run) : Run :=
  match mappings with
  | .ok config => go config
  | .error .misfit => return .error .misfit
  | .error e => return .ok (.failure name e.message)

/-- The schemas of a cache as a page of text, if they can be written. -/
def schemaPage (s : Schema.Snapshot) (baseUrl : String) : Except Breakdown Result :=
  let page := Value.array (s.list.map fun d => d.toValue baseUrl)
  if page.isWritable then .ok (.line page.page) else .error .misfit

/-- Translate a filter. -/
def translate (filter : String) (kind : Service.Kind) (config : MappingConfig) : Result :=
  match Filter.translate (.ofType kind.type config) (some filter) with
  | .ok text => .line text
  | .error e => .failure "translate" e.message

/-- The document of a file. -/
def readDocument (files : Files) (path : String) : Except DocumentFault Value :=
  match files.read path with
  | .ok text => MappingConfig.readText path text
  | .error _ => .error .malformed

/-- Compile the schemas of a saved configuration. -/
def compile (files : Files) (path : String) (targets : Targets)
    (mappings : Except MappingError MappingConfig) : Run :=
  match readDocument files path with
  | .error .malformed => return .ok (.failure "compile" ("cannot read " ++ path))
  | .error .beyondLimits => return .error .misfit
  | .ok document =>
    if document.members?.isNone then
      return .ok (.failure "compile" "managed config must be an object with an 'objects' array")
    else withMappings "compile" mappings fun config =>
      let cache : Schema.Cache := { objects := targets.objects, config }
      let outcome := Id.run (cache.load (Schema.savedSource document))
      return (outcome.mapError .rebuild).bind fun s => schemaPage s targets.baseUrl

/-- Seconds that a given token lives. -/
def givenLifetime : Value := .int 3600

/-- Compile the schemas of a live backend. -/
def fetch (env : Fields String) (address : String) (token : Option String) (targets : Targets)
    (mappings : Except MappingError MappingConfig) : Run :=
  match Backend.filledText? token with
  | none => return .ok (.failure "fetch" "--token (or IDM_TOKEN) is required")
  | some token => withMappings "fetch" mappings fun config => do
    let client := Backend.Client.ofVariables address env
    let (_, client) ← (Backend.Token.useStatic (.string token) givenLifetime).run.run client
    let cache : Schema.Cache := { objects := targets.objects, config }
    let (outcome, _) ← (cache.load Schema.backendSource).run client
    match outcome with
    | .ok s => return schemaPage s targets.baseUrl
    | .error (.load object fault) => return .ok (.failure "fetch" (fault.message object))
    | .error e => return .error (.rebuild e)

/-- The mappings that a command uses: those of a named file, else those of the deployment. -/
def Invocation.config (i : Invocation) (env : Fields String) (files : Files) :
    Except MappingError MappingConfig :=
  match Backend.filledText? i.mappings with
  | some path => MappingConfig.ofFile files path
  | none => MappingConfig.load env files

/-- Carry out a command. -/
def Invocation.run (i : Invocation) (env : Fields String) (files : Files) : Run :=
  let mappings := i.config env files
  match i.command with
  | .translate filter kind => withMappings "translate" mappings fun config =>
    return .ok (translate filter kind config)
  | .compile path targets => compile files path targets mappings
  | .fetch address token targets => fetch env address token targets mappings

end SchemaTool

end ScimBridge
