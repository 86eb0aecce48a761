import ScimBridge.Json.Shape
import ScimBridge.Text.Blank
import ScimBridge.Text.Classes
import ScimBridge.Text.Split

/-!
# What users and groups share
-/

namespace ScimBridge

namespace Resource

/-- The metadata members that are copied from the backend where they are filled in. -/
def stampNames : List String := ["created", "lastModified"]

/-- The metadata of a resource at an address: its version is the text of the backend's revision. -/
def metadata (type location : String) (version : Option String) (stamps : Fields Value) : Value :=
  .object ([("resourceType", .string type), ("location", .string location)]
    ++ version.toList.map (fun v => ("version", .string v))
    ++ stampNames.filterMap fun name => (Value.filled? stamps name).map fun v => (name, v))

/-- The identifier of a backend object. -/
def identifier (object : Fields Value) : Value := (object.get? "_id").getD (.string "")

/-- A value read as a truth value: the word `true`, or any value but a text that is filled in. -/
def asTruth : Value → Bool
  | .string s => lowered (trimText s) == "true"
  | v => v.filled

/-- A member that is given is stored under a backend name. -/
def copyGiven (source : Fields Value) (name backendName : String) (target : Fields Value) :
    Fields Value :=
  match Value.given? source name with
  | some v => target.put backendName v
  | none => target

end Resource

end ScimBridge
