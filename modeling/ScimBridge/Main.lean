import ScimBridge.SchemaTool.Command

/-!
# The schema tool as a program

The program reads its variables and the files that its command names, and carries the command out.
It has no connection to a backend of its own: every request fails as if nobody answered.
-/

namespace ScimBridge

namespace Program

/-- The variables that the program looks at. -/
def variableNames : List String :=
  [Mapping.documentVariable, Mapping.fileVariable, "IDM_BASE_URL", "IDM_TOKEN",
   "IDM_MANAGED_USER_OBJECT", "IDM_MANAGED_ROLE_OBJECT", "SCIM_SERVER_BASE_URL"]

/-- A text as the program keeps it. -/
def textOf (s : String) : String := CodePoint.textOfPlain s.toList

/-- A text as it is printed or names a file. -/
def plainText (s : String) : String := String.ofList (CodePoint.replaced s.toList)

/-- The variables that are set. -/
def readVariables : IO (Fields String) :=
  variableNames.filterMapM fun name => do
    return (← IO.getEnv name).map fun value => (name, textOf value)

/-- The files that a command may read. -/
def pathsOf (i : SchemaTool.Invocation) (env : Fields String) : List String :=
  let document := match i.command with
    | .compile path _ => [path]
    | _ => []
  i.mappings.toList ++ (env.get? Mapping.fileVariable).toList.map trimText ++ document

/-- The texts of files, as far as they can be read. -/
def readFiles (paths : List String) : IO Files :=
  paths.filterMapM fun (path : String) => do
    match ← (IO.FS.readFile (plainText path)).toBaseIO with
    | .ok text => return some (Files.tidy path, textOf text)
    | .error _ => return none

/-- The result of an exchange in which nobody answers. -/
def unanswered {α : Type} : Backend.Exchange α → α
  | .done a => a
  | .call _ next => unanswered (next (.failure "no connection"))

/-- How the program is used. -/
def usage : String :=
  "usage: schema_tool [-h] [--mappings MAPPINGS] \x7btranslate,compile,fetch\x7d ...\n"

/-- Carry out a command. -/
def perform (i : SchemaTool.Invocation) (env : Fields String) : IO UInt32 := do
  let files ← readFiles (pathsOf i env)
  match unanswered (i.run env files) with
  | .error (.rebuild (.load object fault)) =>
    IO.eprintln (plainText (fault.message object))
    return 1
  | .error _ =>
    IO.eprintln "unusable input"
    return 1
  | .ok result =>
    IO.print (plainText result.output)
    for complaint in result.complaint do IO.eprintln (plainText complaint)
    return result.exit.toUInt32

end Program

end ScimBridge

open ScimBridge Program in
/-- The schema tool. -/
def main (words : List String) : IO UInt32 := do
  let env ← readVariables
  match SchemaTool.Invocation.read env (words.map textOf) with
  | .error .help =>
    IO.print usage
    return 0
  | .error .invalid =>
    IO.eprint usage
    return 2
  | .ok invocation => perform invocation env
