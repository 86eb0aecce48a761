import ScimBridge.Filter.Literal
import ScimBridge.Filter.Parser
import ScimBridge.Json.Fields

/-!
# Rendering a filter for the backend

A table gives the backend's name of a path; a path that it does not list keeps its own. Chains and
groups get parentheses, and a negation stands directly in front of those of a chain. A filter may be
a chain of any length, so it is rendered from a list of pieces that are still to be written rather
than by recursion.
-/

namespace ScimBridge

namespace Filter

/-- Names of the backend for paths of a filter. -/
abbrev PathTable := Fields String

/-- The backend's name of a path. -/
def PathTable.name (table : PathTable) (path : String) : String := (table.get? path).getD path

/-- A presence test on its own. -/
def presenceText (table : PathTable) (path : String) : String := table.name path ++ " pr"

/-- A comparison on its own. The value is read with the path as it was written. -/
def comparisonText (table : PathTable) (path operator value : String) : String :=
  table.name path ++ " " ++ operator ++ " " ++ Literal.ofValue path value

/-- What is still to be written: a text, or a filter. -/
inductive Piece where
  | text (s : String)
  | node (f : Filter)

/-- How many pieces a filter can still become. -/
def weight : Filter → Nat
  | .present _ => 1
  | .compare _ _ _ => 1
  | .not inner => weight inner + 4
  | .and l r => weight l + weight r + 4
  | .or l r => weight l + weight r + 4

/-- The weight of a piece. -/
def Piece.weight : Piece → Nat
  | .text _ => 1
  | .node f => f.weight

/-- The weight of all pieces. -/
def pending : List Piece → Nat
  | [] => 0
  | p :: rest => p.weight + pending rest

/-- Whether a filter renders its own parentheses. -/
def isChain : Filter → Bool
  | .and _ _ => true
  | .or _ _ => true
  | _ => false

/-- Write the pieces that are left behind what is written. -/
def write (table : PathTable) (written : String) : List Piece → String
  | [] => written
  | .text s :: rest => write table (written ++ s) rest
  | .node (.present p) :: rest => write table (written ++ presenceText table p) rest
  | .node (.compare p op v) :: rest => write table (written ++ comparisonText table p op v) rest
  | .node (.and l r) :: rest =>
    write table written (.text "(" :: .node l :: .text " and " :: .node r :: .text ")" :: rest)
  | .node (.or l r) :: rest =>
    write table written (.text "(" :: .node l :: .text " or " :: .node r :: .text ")" :: rest)
  | .node (.not inner) :: rest =>
    if inner.isChain then write table written (.text "!" :: .node inner :: rest)
    else write table written (.text "!(" :: .node inner :: .text ")" :: rest)
termination_by pieces => pending pieces
decreasing_by
  all_goals
    simp only [pending, Piece.weight, weight]
    omega

/-- The filter in the backend's query language. -/
def render (table : PathTable) (f : Filter) : String := write table "" [.node f]

/-- The query that every object meets. -/
def matchAll : String := "true"

/-- A filter text in the backend's query language; no filter, or a blank one, is met by all. -/
def translate (table : PathTable) (text : Option String) : Except FilterError String :=
  match text with
  | none => .ok matchAll
  | some s => if allBlank s.toList then .ok matchAll else (parse s).map (render table)

end Filter

end ScimBridge
