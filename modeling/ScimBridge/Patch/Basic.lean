import ScimBridge.Json.Value

/-!
# Patches

What a patch request asks for becomes a list of operations on the fields of a backend object.
-/

namespace ScimBridge

namespace Patch

/-- What an operation does. -/
inductive Verb where
  | add
  | replace
  | remove
  deriving DecidableEq, Repr

namespace Verb

/-- The word of a verb. -/
def text : Verb → String
  | .add => "add"
  | .replace => "replace"
  | .remove => "remove"

/-- The verb of a word. -/
def ofText? (s : String) : Option Verb := [add, replace, remove].find? fun v => v.text == s

end Verb

/-- An operation on one field of a backend object; a field is a pointer that begins with a slash. -/
structure Operation where
  verb : Verb
  field : String
  value : Option Value := none

/-- The operation as the backend reads it. -/
def Operation.toValue (o : Operation) : Value :=
  .object ([("operation", .string o.verb.text), ("field", .string o.field)]
    ++ o.value.toList.map fun v => ("value", v))

/-- Why a patch request is refused. -/
inductive Fault where
  | notAnObject
  | missingSchema
  | noOperations
  | malformedOperation
  | unsupportedOperation (op : Value)
  | pathNotText
  | removeWithoutPath
  | missingValue (verb : Verb)
  | valueNotObject (verb : Verb)
  | schemaValueNotObject (verb : Verb)
  | unsupportedPath (path : String)
  | malformedMembers
  | unsupportedMemberFilter (path : String)

end Patch

end ScimBridge
