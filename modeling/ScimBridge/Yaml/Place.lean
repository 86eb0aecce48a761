import ScimBridge.Json.Reader

/-!
# Places in a YAML text

The layout of a YAML text carries meaning: a reader always knows the column it stands in, and looks
for the marks that stand between documents at the beginning of a line. Texts end their lines with
line feeds, or with one of the line ends that Unicode adds to it.
-/

namespace ScimBridge

namespace Yaml

/-- Characters that end a line. -/
def isLineBreak (c : Char) : Bool :=
  c == '\n' || c == '\u0085' || c == '\u2028' || c == '\u2029'

/-- Blanks inside a line. -/
def isGap (c : Char) : Bool := c == ' ' || c == '\t'

/-- Whether a text begins with a blank or a line end, or is empty. -/
def atGap : List Char → Bool
  | [] => true
  | c :: _ => isGap c || isLineBreak c

/-- Whether the line that begins here is a mark between documents. -/
def atMark : List Char → Bool
  | '-' :: '-' :: '-' :: rest => atGap rest
  | '.' :: '.' :: '.' :: rest => atGap rest
  | _ => false

/-- Characters with a meaning between brackets. -/
def isBracketMark (c : Char) : Bool :=
  c == ',' || c == '[' || c == ']' || c == '\x7b' || c == '\x7d'

/-- Whether a character may stand in a text at all. -/
def isPrintable (c : Char) : Bool :=
  let n := c.toNat
  n == 9 || n == 10 || n == 13 || (0x20 ≤ n && n ≤ 0x7E) || n == 0x85
    || (0xA0 ≤ n && n ≤ 0xFFFD) || 0x10000 ≤ n

/-- The character that marks the beginning of a text. -/
def byteOrderMark : Char := '\uFEFF'

/-- How many characters are in front, how many lines, and how many columns on the line. -/
structure Place where
  index : Nat
  line : Nat
  column : Nat
  deriving DecidableEq

namespace Place

/-- The beginning of a text. -/
def start : Place := ⟨0, 0, 0⟩

/-- The place behind a character. -/
def step (p : Place) (c : Char) : Place :=
  if isLineBreak c then ⟨p.index + 1, p.line + 1, 0⟩
  else ⟨p.index + 1, p.line, if c == byteOrderMark then p.column else p.column + 1⟩

/-- The place behind some text. -/
def after (p : Place) (passed : List Char) : Place := passed.foldl step p

theorem after_append (p : Place) (a b : List Char) : p.after (a ++ b) = (p.after a).after b :=
  List.foldl_append

theorem index_step (p : Place) (c : Char) : (p.step c).index = p.index + 1 := by
  unfold step; split <;> rfl

theorem index_after (p : Place) (passed : List Char) :
    (p.after passed).index = p.index + passed.length := by
  induction passed generalizing p with
  | nil => rfl
  | cons c cs ih =>
    rw [show p.after (c :: cs) = (p.step c).after cs from rfl, ih, index_step, List.length_cons]
    omega

end Place

/-- What line ends inside a scalar stand for: a single line feed becomes a blank, and of more the
first falls away. -/
def fold : List Char → List Char
  | [] => []
  | ['\n'] => [' ']
  | '\n' :: more => more
  | ends => ends

/-- How a line end is kept in a scalar. -/
def keptBreak (c : Char) : Char := if c == '\u0085' then '\n' else c

end Yaml

end ScimBridge
