/-!
# Filters

A filter is a tree of presence tests and comparisons, joined by `and`, `or` and `not`. Paths,
operators and comparison values stay as they were written; what a value means to the backend is
decided when the filter is rendered.
-/

namespace ScimBridge

/-- A filter expression. -/
inductive Filter where
  | present (path : String)
  | compare (path operator value : String)
  | not (inner : Filter)
  | and (left right : Filter)
  | or (left right : Filter)
  deriving DecidableEq, Repr

/-- The two words that join filters. -/
inductive Connective where
  | and
  | or
  deriving DecidableEq, Repr

namespace Connective

/-- The word in lower case. -/
def word : Connective → List Char
  | .and => ['a', 'n', 'd']
  | .or => ['o', 'r']

/-- The word as a string. -/
def text (w : Connective) : String := String.ofList w.word

/-- The filter that a connective makes of its two sides. -/
def join : Connective → Filter → Filter → Filter
  | .and, l, r => .and l r
  | .or, l, r => .or l r

end Connective

namespace Filter

/-- The operators that take a value. -/
def comparisonOperators : List String :=
  ["eq", "ne", "co", "sw", "ew", "gt", "ge", "lt", "le"]

/-- The operator that takes none. -/
def presenceOperator : String := "pr"

end Filter

/-- Why a filter is refused. -/
inductive FilterFault where
  | unbalancedParentheses
  | unterminatedLiteral
  | emptyExpression
  | missingOperand (word : Connective)
  | invalidSyntax
  | unsupportedOperator (operator : String)
  | unexpectedValue
  | missingValue (operator : String)
  | malformedLiteral
  | nestedTooDeeply
  deriving DecidableEq, Repr

/-- The wording of a fault. -/
def FilterFault.reason : FilterFault → String
  | .unbalancedParentheses => "Unbalanced parentheses"
  | .unterminatedLiteral => "Unterminated string literal"
  | .emptyExpression => "Empty expression"
  | .missingOperand w => "Missing operand for '" ++ w.text ++ "'"
  | .invalidSyntax => "Invalid filter syntax"
  | .unsupportedOperator op => "Unsupported operator '" ++ op ++ "'"
  | .unexpectedValue => "Operator 'pr' does not take a value"
  | .missingValue op => "Operator '" ++ op ++ "' requires a value"
  | .malformedLiteral => "Malformed string literal"
  | .nestedTooDeeply => "Filter nested too deeply"

/-- A refused filter: the part of it that could not be read, and why. -/
structure FilterError where
  fragment : String
  fault : FilterFault
  deriving DecidableEq, Repr

/-- The wording of the reason. -/
def FilterError.reason (e : FilterError) : String := e.fault.reason

/-- The reason followed by the fragment. -/
def FilterError.message (e : FilterError) : String := e.reason ++ ": '" ++ e.fragment ++ "'"

end ScimBridge
