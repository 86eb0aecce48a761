import ScimBridge.Files
import ScimBridge.Json.Reader
import ScimBridge.Mapping.Document
import ScimBridge.Yaml.Reader

/-!
# Where mappings come from

A deployment gives its mapping document in one variable or names a file in another one; the document
itself goes before the file. A file that does not exist holds no mappings.
-/

namespace ScimBridge

namespace MappingConfig

/-- Whether the name of a file says that it holds YAML. -/
def isYamlFile (path : String) : Bool :=
  [".yaml", ".yml"].contains (lowered (Files.extension path))

/-- The document in the text of a file, by the name of the file. -/
def readText (path text : String) : Except DocumentFault Value :=
  if isYamlFile path then Yaml.read text else Value.ofDocument text

/-- The mappings of a file. -/
def ofFile (files : Files) (path : String) : Except MappingError MappingConfig :=
  match files.read path with
  | .error .missing => .ok empty
  | .error .nameTooLong => .error .misfit
  | .ok text =>
    match readText path text with
    | .ok document => ofDocument document
    | .error .malformed => .error (.malformedFile (Files.tidy path))
    | .error .beyondLimits => .error .misfit

/-- The mappings of a document text and, where there is none, of the file with a given path. -/
def ofSettings (files : Files) (document path : String) : Except MappingError MappingConfig :=
  let document := trimText document
  let path := trimText path
  if document ≠ "" then
    match Value.ofDocument document with
    | .ok v => ofDocument v
    | .error .malformed => .error .malformedVariable
    | .error .beyondLimits => .error .misfit
  else if path ≠ "" then ofFile files path
  else .ok empty

/-- The mappings that the variables of a deployment give. -/
def load (vars : Fields String) (files : Files) : Except MappingError MappingConfig :=
  ofSettings files ((vars.get? Mapping.documentVariable).getD "")
    ((vars.get? Mapping.fileVariable).getD "")

end MappingConfig

end ScimBridge
