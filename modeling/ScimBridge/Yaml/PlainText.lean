import ScimBridge.Yaml.Place

/-!
# Plain texts

A scalar without quotes is words with gaps between them. It ends in front of a mark or a comment,
at a mark between documents, and where a line begins too far to the left. Line ends between words
are folded.

Main statement: what follows a plain text is the end of the text that it was read from.
-/

namespace ScimBridge

namespace Yaml

namespace PlainText

/-- Whether a word ends in front of a text; `bracketed` says that it stands between brackets. -/
def ends (bracketed : Bool) : List Char → Bool
  | [] => true
  | c :: rest =>
    isGap c || isLineBreak c
      || (c == ':' && (atGap rest || (bracketed && rest.head?.any isBracketMark)))
      || (bracketed && (c == '?' || isBracketMark c))

/-- What was passed since the last word: nothing, blanks, or line ends, the latest first, and how
many blanks stand on the new line. -/
inductive Gap where
  | none
  | blanks (count : Nat)
  | lines (breaks : List Char) (column : Nat)

namespace Gap

/-- What a gap stands for between two words. -/
def text : Gap → List Char
  | .none => []
  | .blanks n => List.replicate n ' '
  | .lines breaks _ => fold breaks.reverse

/-- The gap with a blank more. -/
def addBlank : Gap → Gap
  | .none => .blanks 1
  | .blanks n => .blanks (n + 1)
  | .lines breaks column => .lines breaks (column + 1)

/-- The gap with a line end more; the blanks in front of it fall away. -/
def addBreak (c : Char) : Gap → Gap
  | .lines breaks _ => .lines (keptBreak c :: breaks) 0
  | _ => .lines [keptBreak c] 0

/-- Whether a word behind the gap no longer belongs to the text. -/
def closes (bracketed : Bool) (indent : Nat) (next : Char) : Gap → Bool
  | .none => false
  | .blanks _ => next == '#'
  | .lines _ column => next == '#' || (!bracketed && column < indent)

/-- Whether a gap ends a line. -/
def isLines : Gap → Bool
  | .lines .. => true
  | _ => false

end Gap

/-- A plain text, what follows it, and whether a line ends between them. -/
structure Found where
  text : List Char
  rest : List Char
  lineEnded : Bool

/-- The plain text that goes on here; what was read of it is kept in reverse. -/
def scan (bracketed : Bool) (indent : Nat) (text : List Char) (gap : Gap) : List Char → Found
  | [] => ⟨text.reverse, [], gap.isLines⟩
  | c :: rest =>
    if isLineBreak c then
      if atMark rest then ⟨text.reverse, rest, true⟩
      else scan bracketed indent text (gap.addBreak c) rest
    else if c == ' ' then scan bracketed indent text gap.addBlank rest
    else if ends bracketed (c :: rest) || gap.closes bracketed indent c then
      ⟨text.reverse, c :: rest, gap.isLines⟩
    else scan bracketed indent (c :: (gap.text.reverse ++ text)) .none rest

theorem rest_suffix (bracketed : Bool) (indent : Nat) (text : List Char) (gap : Gap)
    (cs : List Char) : (scan bracketed indent text gap cs).rest <:+ cs := by
  induction cs generalizing text gap with
  | nil => exact List.suffix_refl _
  | cons c rest ih =>
    unfold scan
    split
    · split
      · exact List.suffix_cons c rest
      · exact (ih ..).trans (List.suffix_cons c rest)
    · split
      · exact (ih ..).trans (List.suffix_cons c rest)
      · split
        · exact List.suffix_refl _
        · exact (ih ..).trans (List.suffix_cons c rest)

/-- The plain text at the beginning of a text. -/
def read (bracketed : Bool) (indent : Nat) (cs : List Char) : Found :=
  scan bracketed indent [] .none cs

/-- Characters that cannot begin a plain text. -/
def marks : List Char :=
  ['-', '?', ':', ',', '[', ']', '\x7b', '\x7d', '#', '&', '*', '!', '|', '>', '\'', '"', '%', '@',
   '\u0060']

/-- Whether a plain text begins here. Three of the marks begin one in front of a word. -/
def begins (bracketed : Bool) (c : Char) (rest : List Char) : Bool :=
  !(isGap c || isLineBreak c || marks.contains c)
    || (!atGap rest && (c == '-' || (!bracketed && (c == '?' || c == ':'))))

end PlainText

end Yaml

end ScimBridge
