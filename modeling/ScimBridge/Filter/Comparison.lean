import ScimBridge.Filter.Basic
import ScimBridge.Filter.Literal
import ScimBridge.Text.Blank

/-!
# One comparison

A comparison is a path, an operator and, for all operators but `pr`, a value that runs to the end of
the text. The text has no blanks at its ends.
-/

namespace ScimBridge

namespace Comparison

/-- The first character of a path. -/
def isPathStart (c : Char) : Bool := isLatinLetter c || c == '_' || c == '$'

/-- A later character of a path. -/
def isPathChar (c : Char) : Bool :=
  isWordChar c || c == '.' || c == ':' || c == '$' || c == '-'

/-- The path at the head of a text, and what follows it. -/
def spanPath? (cs : List Char) : Option (List Char × List Char) :=
  match cs with
  | c :: rest =>
    if isPathStart c then some (c :: rest.takeWhile isPathChar, rest.dropWhile isPathChar) else none
  | [] => none

/-- One or more blanks: what follows them. -/
def afterBlanks? (cs : List Char) : Option (List Char) :=
  match cs with
  | c :: rest => if isBlank c then some (rest.dropWhile isBlank) else none
  | [] => none

/-- Path, operator and value of a comparison, by position alone. -/
structure Parts where
  path : List Char
  operator : List Char
  value : List Char
  deriving DecidableEq

/-- Cut a text into path, operator and value; the value may be empty. -/
def Parts.of? (cs : List Char) : Option Parts := do
  let (path, rest) ← spanPath? cs
  let rest ← afterBlanks? rest
  let operator := rest.takeWhile isLatinLetter
  if operator.isEmpty then none
  else match rest.dropWhile isLatinLetter with
    | [] => some ⟨path, operator, []⟩
    | rest => do
      let value ← afterBlanks? rest
      if value.isEmpty then none else some ⟨path, operator, value⟩

/-- The filter that the parts make, or why they make none. -/
def Parts.filter (p : Parts) : Except FilterFault Filter :=
  let path := String.ofList p.path
  let operator := lowered (String.ofList p.operator)
  if operator = Filter.presenceOperator then
    if p.value.isEmpty then .ok (.present path) else .error .unexpectedValue
  else if !Filter.comparisonOperators.contains operator then
    .error (.unsupportedOperator (String.ofList p.operator))
  else if p.value.isEmpty then .error (.missingValue operator)
  else if p.value.head? = some '"' ∧ Literal.isString p.value = false then .error .malformedLiteral
  else .ok (.compare path operator (String.ofList p.value))

/-- The comparison that a text spells. -/
def read (cs : List Char) : Except FilterError Filter :=
  let refuse (f : FilterFault) : FilterError := ⟨String.ofList cs, f⟩
  match Parts.of? cs with
  | none => .error (refuse .invalidSyntax)
  | some p => p.filter.mapError refuse

end Comparison

end ScimBridge
