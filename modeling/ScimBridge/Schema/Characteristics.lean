import ScimBridge.Json.Shape

/-!
# Characteristics of attributes

The closed lists of words that describe an attribute in a schema. Each has its spelling and is read
back from it.
-/

namespace ScimBridge

/-- A word that a closed list does not hold. -/
structure UnknownWord where
  value : Value
  list : String

/-- The wording of an unknown word. -/
def UnknownWord.message (e : UnknownWord) : String :=
  e.value.inner ++ " is not a valid " ++ e.list

/-- The data type of an attribute. -/
inductive AttributeType where
  | string
  | boolean
  | integer
  | decimal
  | dateTime
  | complex
  | reference
  deriving DecidableEq, Repr

/-- Who may write an attribute. -/
inductive Mutability where
  | readOnly
  | readWrite
  | writeOnly
  | immutable
  deriving DecidableEq, Repr

/-- When an attribute is returned. -/
inductive Returned where
  | always
  | never
  | default
  | request
  deriving DecidableEq, Repr

/-- How far the values of an attribute are unique. -/
inductive Uniqueness where
  | none
  | server
  | global
  deriving DecidableEq, Repr

/-- A closed list of words. -/
class Wording (α : Type) where
  /-- The name of the list. -/
  listName : String
  /-- All members. -/
  all : List α
  /-- The spelling of a member. -/
  text : α → String

instance : Wording AttributeType where
  listName := "ScimType"
  all := [.string, .boolean, .integer, .decimal, .dateTime, .complex, .reference]
  text
    | .string => "string"
    | .boolean => "boolean"
    | .integer => "integer"
    | .decimal => "decimal"
    | .dateTime => "dateTime"
    | .complex => "complex"
    | .reference => "reference"

instance : Wording Mutability where
  listName := "Mutability"
  all := [.readOnly, .readWrite, .writeOnly, .immutable]
  text
    | .readOnly => "readOnly"
    | .readWrite => "readWrite"
    | .writeOnly => "writeOnly"
    | .immutable => "immutable"

instance : Wording Returned where
  listName := "Returned"
  all := [.always, .never, .default, .request]
  text
    | .always => "always"
    | .never => "never"
    | .default => "default"
    | .request => "request"

instance : Wording Uniqueness where
  listName := "Uniqueness"
  all := [.none, .server, .global]
  text
    | .none => "none"
    | .server => "server"
    | .global => "global"

namespace Wording

variable {α : Type} [Wording α]

/-- The member that a text spells. -/
def ofText? (s : String) : Option α := (all : List α).find? fun a => text a == s

/-- The member that a value spells. -/
def ofValue? (v : Value) : Option α := v.text?.bind ofText?

/-- The member that a value spells, which is needed here. -/
def read (v : Value) : Except UnknownWord α :=
  match ofValue? v with
  | some a => .ok a
  | none => .error ⟨v, listName α⟩

end Wording

end ScimBridge
