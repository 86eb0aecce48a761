import ScimBridge.Json.Shown
import ScimBridge.Patch.Basic
import ScimBridge.Schema.Names

/-!
# Refused patches

The wording of each fault and the class of errors that it belongs to.
-/

namespace ScimBridge

namespace Patch.Fault

/-- The wording of a fault. -/
def detail : Patch.Fault → String
  | .notAnObject => "PatchOp request must be a JSON object"
  | .missingSchema => "schemas must include " ++ Urn.patchOp
  | .noOperations => "Operations must be a non-empty list"
  | .malformedOperation => "Each operation must be an object"
  | .unsupportedOperation op => "Unsupported patch operation '" ++ op.shown ++ "'"
  | .pathNotText => "path must be a string"
  | .removeWithoutPath => "remove requires a path"
  | .missingValue verb => verb.text ++ " requires a value"
  | .valueNotObject verb => verb.text ++ " without a path requires an object value"
  | .schemaValueNotObject verb => verb.text ++ " on a schema requires an object value"
  | .unsupportedPath path => "Unsupported attribute path '" ++ path ++ "'"
  | .malformedMembers => "members value must be a list or an object"
  | .unsupportedMemberFilter path => "Unsupported members filter in '" ++ path ++ "'"

/-- The class of a fault. -/
def scimType : Patch.Fault → String
  | .notAnObject => "invalidSyntax"
  | .missingSchema => "invalidSyntax"
  | .noOperations => "invalidSyntax"
  | .malformedOperation => "invalidSyntax"
  | .unsupportedOperation _ => "invalidSyntax"
  | .pathNotText => "invalidPath"
  | .removeWithoutPath => "noTarget"
  | .missingValue _ => "invalidValue"
  | .valueNotObject _ => "invalidValue"
  | .schemaValueNotObject _ => "invalidValue"
  | .unsupportedPath _ => "invalidPath"
  | .malformedMembers => "invalidValue"
  | .unsupportedMemberFilter _ => "invalidFilter"

end Patch.Fault

end ScimBridge
