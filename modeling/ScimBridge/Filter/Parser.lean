import ScimBridge.Filter.Comparison
import ScimBridge.Filter.Cursor
import ScimBridge.Text.CodePoint

/-!
# Reading a filter

The first connective outside parentheses and literals splits a filter; neither connective binds more
tightly, so `a pr or b pr and c pr` is `a pr or (b pr and c pr)`. A part without connectives is a
group in parentheses, a negation, or a comparison. Chains of connectives and redundant parentheses
are walked in a loop. Each `not`, and each group that holds a connective, is one level of nesting,
and the number of levels is bounded.
-/

namespace ScimBridge

namespace Filter

/-- How many levels of nesting are read. A level takes two calls, that which reads an expression and
that which reads its term, and a thousand calls may be open at once: so this is half a thousand, less
twenty levels for the calls that are open already where the reading of a filter begins. -/
def nestingLimit : Nat := 480

/-- What follows a leading `not`, in any case: one or more blanks are dropped, an opening
parenthesis is kept. -/
def negated? (cs : List Char) : Option (List Char) :=
  match cs with
  | n :: o :: t :: rest =>
    if lowerText [n, o, t] = ['n', 'o', 't'] then
      match rest with
      | '(' :: _ => some rest
      | _ => Comparison.afterBlanks? rest
    else none
  | _ => none

/-- A part that is neither empty nor a chain nor a group as a whole. -/
def readSimple (nested : List Char → Except FilterError Filter) (cs : List Char) :
    Except FilterError Filter :=
  match negated? cs with
  | some rest => (nested rest).map .not
  | none => Comparison.read cs

/-- A part without connectives at its top, with its redundant parentheses. `whole` is the part as it
was first met. -/
def readPart (nested : List Char → Except FilterError Filter) (whole cs : List Char) :
    Except FilterError Filter :=
  match _h : groupInterior? cs with
  | none => readSimple nested cs
  | some interior =>
    let inner := trim interior
    if inner = [] then .error ⟨String.ofList whole, .emptyExpression⟩
    else if (Connective.first? inner).isSome then nested inner
    else readPart nested whole inner
termination_by cs.length
decreasing_by
  exact Nat.lt_of_le_of_lt (length_trim_le _) (length_groupInterior_lt _h)

/-- A term of a chain. -/
def readTerm (nested : List Char → Except FilterError Filter) (cs : List Char) :
    Except FilterError Filter :=
  readPart nested cs (trim cs)

/-- Close a chain: the terms read so far, the last one first, stand to the left of `last`. -/
def joinChain (terms : List (Filter × Connective)) (last : Filter) : Filter :=
  terms.foldl (fun right p => p.2.join p.1 right) last

/-- Walk a chain of terms. `terms` holds those already read, the last one first. -/
def readChain (nested : List Char → Except FilterError Filter)
    (terms : List (Filter × Connective)) (cs : List Char) : Except FilterError Filter :=
  match _h : Connective.first? cs with
  | none => (readTerm nested cs).map (joinChain terms)
  | some (i, w) =>
    let left := cs.take i
    let right := cs.drop (i + w.word.length)
    if allBlank left || allBlank right then .error ⟨String.ofList cs, .missingOperand w⟩
    else
      match readTerm nested left with
      | .error e => .error e
      | .ok term => readChain nested ((term, w) :: terms) (trim right)
termination_by cs.length
decreasing_by
  have hi := Connective.first?_lt _h
  have hw : 0 < w.word.length := by cases w <;> decide
  have ht := length_trim_le right
  simp only [right, List.length_drop] at ht ⊢
  omega

/-- Read an expression with at most `levels` levels of nesting. -/
def readExpression : Nat → List Char → Except FilterError Filter
  | 0, cs => .error ⟨String.ofList cs, .nestedTooDeeply⟩
  | levels + 1, cs =>
    let expr := trim cs
    if expr = [] then .error ⟨String.ofList cs, .emptyExpression⟩
    else readChain (readExpression levels) [] expr

/-- The beginning of a long text. -/
def excerpt (cs : List Char) : String :=
  let points := CodePoint.points cs
  if points.length ≤ 60 then String.ofList cs else CodePoint.textOf (points.take 60) ++ "..."

/-- A filter that is nested too deeply is reported as a whole, not by the part that went too far. -/
def nameWhole (cs : List Char) (e : FilterError) : FilterError :=
  if e.fault = .nestedTooDeeply then ⟨excerpt cs, .nestedTooDeeply⟩ else e

/-- Read a filter. -/
def parse (text : String) : Except FilterError Filter :=
  let cs := text.toList
  if allBlank cs then .error ⟨text, .emptyExpression⟩
  else match balanceFault? cs with
    | some fault => .error ⟨text, fault⟩
    | none => (readExpression nestingLimit cs).mapError (nameWhole cs)

end Filter

end ScimBridge
