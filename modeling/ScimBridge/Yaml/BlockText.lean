import ScimBridge.Yaml.Place

/-!
# Block texts

A block text is the indented lines below its header. In a folded one a line end between two lines
that begin with text becomes a blank; the line ends behind the last line are kept, dropped, or cut
to one, as the header says.

Main statement: the rows of a text, put together, are the text.
-/

namespace ScimBridge

namespace Yaml

/-- A line and the character that ends it. -/
structure Row where
  text : List Char
  ending? : Option Char

namespace Row

/-- The characters of a row. -/
def chars (row : Row) : List Char := row.text ++ row.ending?.toList

/-- How many blanks a row begins with. -/
def margin (row : Row) : Nat := (row.text.takeWhile (· == ' ')).length

/-- Whether a row holds nothing but blanks within the margin. -/
def isBlank (indent : Nat) (row : Row) : Bool :=
  row.ending?.isSome && row.margin == row.text.length && row.margin ≤ indent

/-- What a row holds behind the margin, unless there is nothing or it begins inside it. -/
def content? (indent : Nat) (row : Row) : Option (List Char) :=
  let content := row.text.drop indent
  if indent ≤ row.margin && !content.isEmpty then some content else none

end Row

/-- The rows of a text; the last one has no ending. -/
def rows : List Char → List Row
  | [] => [⟨[], none⟩]
  | c :: rest =>
    if isLineBreak c then ⟨[], some c⟩ :: rows rest
    else match rows rest with
      | [] => [⟨[c], none⟩]
      | row :: more => ⟨c :: row.text, row.ending?⟩ :: more

theorem rows_ne_nil (cs : List Char) : rows cs ≠ [] := by
  cases cs with
  | nil => simp [rows]
  | cons c rest => unfold rows; split <;> (try split) <;> simp

/-- Cutting a text into rows loses nothing. -/
theorem flatMap_chars_rows (cs : List Char) : (rows cs).flatMap Row.chars = cs := by
  induction cs with
  | nil => rfl
  | cons c rest ih =>
    unfold rows
    split
    · simp [Row.chars, ih]
    · split
      · rename_i h
        exact absurd h (rows_ne_nil rest)
      · rename_i row more h
        rw [h] at ih
        simp only [List.flatMap_cons, Row.chars, List.cons_append] at ih ⊢
        rw [ih]

namespace BlockText

/-- What happens to the line ends behind the last line. -/
inductive Tail where
  | one
  | all
  | none

/-- The header of a block text: the line ends to keep, and how far it is indented, if it says so. -/
structure Header where
  tail : Tail
  indent? : Option Nat

/-- The sign that says which line ends to keep. -/
def tailOf? (c : Char) : Option Tail :=
  if c == '+' then some .all else if c == '-' then some .none else Option.none

/-- A digit that says how far a text is indented. -/
def indentOf? (c : Char) : Option Nat := if c.isDigit then some (c.toNat - 48) else none

/-- A sign and a digit in either order, each of which may be missing. -/
def indicators (cs : List Char) : Header × List Char :=
  match cs with
  | [] => (⟨.one, none⟩, [])
  | c :: rest =>
    match tailOf? c, indentOf? c with
    | some tail, _ =>
      match rest.head?.bind indentOf? with
      | some n => (⟨tail, some n⟩, rest.tail)
      | none => (⟨tail, none⟩, rest)
    | none, some n =>
      match rest.head?.bind tailOf? with
      | some tail => (⟨tail, some n⟩, rest.tail)
      | none => (⟨.one, some n⟩, rest)
    | none, none => (⟨.one, none⟩, cs)

/-- What follows the rest of a line on which only blanks and a comment may stand. -/
def passLine (cs : List Char) : Except DocumentFault (List Char) :=
  let behind := cs.dropWhile (· == ' ')
  let behind := if behind.head? == some '#' then behind.dropWhile (!isLineBreak ·) else behind
  match behind with
  | [] => .ok []
  | c :: rest => if isLineBreak c then .ok rest else .error .malformed

/-- The header behind the mark of a block text, and the lines below it. -/
def header (cs : List Char) : Except DocumentFault (Header × List Char) :=
  let (found, rest) := indicators cs
  if found.indent? == some 0 then .error .malformed
  else if rest.head?.any fun c => c != ' ' && !isLineBreak c then .error .malformed
  else (passLine rest).map fun lines => (found, lines)

/-- The margin of a text that does not say its own: that of its first line with text, or of a blank
one in front of it that is longer. -/
def marginOf : List Row → Nat
  | [] => 0
  | row :: more =>
    if row.margin == row.text.length && row.ending?.isSome then max row.margin (marginOf more)
    else row.margin

/-- The last line of what is read so far: its ending, and whether it begins with text. -/
structure Last where
  ending? : Option Char
  flush : Bool

/-- What is read so far: the text in reverse, its last line, and the ends of the blank lines behind
it in reverse. -/
structure Reading where
  text : List Char
  last? : Option Last
  breaks : List Char

/-- With one more line of text. -/
def Reading.addLine (folded : Bool) (r : Reading) (content : List Char) (ending? : Option Char) :
    Reading :=
  let flush := !content.head?.any isGap
  let between := match r.last? with
    | none => r.breaks.reverse
    | some last =>
      if folded && last.ending? == some '\n' && last.flush && flush then
        if r.breaks.isEmpty then [' '] else r.breaks.reverse
      else last.ending?.toList ++ r.breaks.reverse
  ⟨(between ++ content).reverse ++ r.text, some ⟨ending?.map keptBreak, flush⟩, []⟩

/-- The lines of the text, and the rows behind them. -/
def scan (folded : Bool) (indent : Nat) (r : Reading) : List Row → Reading × List Row
  | [] => (r, [])
  | row :: more =>
    if row.isBlank indent then
      scan folded indent
        { r with breaks := (row.ending?.map keptBreak).toList ++ r.breaks } more
    else match row.content? indent with
      | none => (r, row :: more)
      | some content => scan folded indent (r.addLine folded content row.ending?) more

/-- The whole text, with the line ends behind it that are kept. -/
def Reading.finish (tail : Tail) (r : Reading) : String :=
  let ending := (r.last?.bind Last.ending?).toList
  let kept := match tail with
    | .none => []
    | .one => ending
    | .all => ending ++ r.breaks.reverse
  CodePoint.textOfPlain (r.text.reverse ++ kept)

/-- The block text behind its mark, and what follows it; `least` is the least indentation that its
lines can have. -/
def read (folded : Bool) (least : Nat) (cs : List Char) :
    Except DocumentFault (String × List Char) := do
  let (found, lines) ← header cs
  let body := rows lines
  let indent := match found.indent? with
    | some n => least + n - 1
    | none => max least (marginOf body)
  let (r, behind) := scan folded indent ⟨[], none, []⟩ body
  return (r.finish found.tail, behind.flatMap Row.chars)

end BlockText

end Yaml

end ScimBridge
