import ScimBridge.Yaml.Place

/-!
# Quoted texts

Between single quotes a quote is written twice and everything else stands for itself. Between double
quotes a backslash begins an escape. In both, line ends are folded together with the blanks around
them, and a mark between documents has no place.

Main statement: what follows a quoted text is the end of the text that it was read from.
-/

namespace ScimBridge

namespace Yaml

namespace QuotedText

/-- The code point behind an escape of one letter. -/
def escapedPoint? (c : Char) : Option Nat :=
  match c with
  | '0' => some 0
  | 'a' => some 7
  | 'b' => some 8
  | 't' => some 9
  | '\t' => some 9
  | 'n' => some 10
  | 'v' => some 11
  | 'f' => some 12
  | 'r' => some 13
  | 'e' => some 27
  | ' ' => some 32
  | '"' => some 34
  | '/' => some 47
  | '\\' => some 92
  | 'N' => some 0x85
  | '_' => some 0xA0
  | 'L' => some 0x2028
  | 'P' => some 0x2029
  | _ => none

/-- How many hexadecimal digits follow a letter. -/
def codeLength? (c : Char) : Option Nat :=
  match c with
  | 'x' => some 2
  | 'u' => some 4
  | 'U' => some 8
  | _ => none

/-- Where the reading of a quoted text stands. Blanks and line ends are kept in reverse until it
shows what they stand for; `joined` holds those behind an escaped line end, `quote` is behind a
single quote that may be the first of two. -/
inductive Mode where
  | text
  | blanks (pending : List Char)
  | lines (breaks : List Char)
  | joined (breaks : List Char)
  | escape
  | code (left value : Nat)
  | quote

namespace Mode

/-- What the passed blanks and line ends stand for when more text follows. -/
def written : Mode → List Char
  | .blanks pending => pending.reverse
  | .lines breaks => fold breaks.reverse
  | .joined breaks => breaks.reverse
  | _ => []

/-- With a blank more. -/
def addBlank (c : Char) : Mode → Mode
  | .blanks pending => .blanks (c :: pending)
  | .lines breaks => .lines breaks
  | .joined breaks => .joined breaks
  | _ => .blanks [c]

/-- With a line end more. -/
def addBreak (c : Char) : Mode → Mode
  | .lines breaks => .lines (keptBreak c :: breaks)
  | .joined breaks => .joined (keptBreak c :: breaks)
  | _ => .lines [keptBreak c]

end Mode

/-- A code that was written with digits, in front of the earlier points. -/
def addCode (value : Nat) (points : List Nat) : Except DocumentFault (List Nat) :=
  if value < CodePoint.limit then .ok (value :: points)
  else if value < 0x80000000 then .error .malformed
  else .error .beyondLimits

/-- The text of code points in reverse. Halves of surrogate pairs stay halves. -/
def textOf (points : List Nat) : String := CodePoint.textOf points.reverse

/-- The quoted text that goes on here, and what follows it. -/
def scan (double : Bool) (points : List Nat) (mode : Mode) :
    List Char → Except DocumentFault (String × List Char)
  | [] =>
    match mode with
    | .quote => .ok (textOf points, [])
    | _ => .error .malformed
  | c :: rest =>
    match mode with
    | .quote =>
      if c == '\'' then scan double (c.toNat :: points) .text rest
      else .ok (textOf points, c :: rest)
    | .escape =>
      match escapedPoint? c, codeLength? c with
      | some p, _ => scan double (p :: points) .text rest
      | none, some n => scan double points (.code n 0) rest
      | none, none =>
        if isLineBreak c && !atMark rest then scan double points (.joined []) rest
        else .error .malformed
    | .code left value =>
      match Document.hexValue? c with
      | none => .error .malformed
      | some d =>
        if left ≤ 1 then
          match addCode (16 * value + d) points with
          | .ok points => scan double points .text rest
          | .error fault => .error fault
        else scan double points (.code (left - 1) (16 * value + d)) rest
    | mode =>
      if isLineBreak c then
        if atMark rest then .error .malformed
        else scan double points (mode.addBreak c) rest
      else if isGap c then scan double points (mode.addBlank c) rest
      else
        let points := (mode.written.map Char.toNat).reverse ++ points
        if double && c == '"' then .ok (textOf points, rest)
        else if double && c == '\\' then scan double points .escape rest
        else if !double && c == '\'' then scan double points .quote rest
        else scan double (c.toNat :: points) .text rest

/-- The quoted text behind its first quote. -/
def read (double : Bool) (cs : List Char) : Except DocumentFault (String × List Char) :=
  scan double [] .text cs

theorem rest_suffix {double : Bool} {points : List Nat} {mode : Mode} {cs : List Char}
    {found : String × List Char} (h : scan double points mode cs = .ok found) :
    found.2 <:+ cs := by
  induction cs generalizing points mode with
  | nil =>
    unfold scan at h
    split at h
    · cases h; exact List.suffix_refl _
    · cases h
  | cons c rest ih =>
    have tail : ∀ {p m}, scan double p m rest = .ok found → found.2 <:+ c :: rest :=
      fun h => (ih h).trans (List.suffix_cons c rest)
    unfold scan at h
    split at h
    · split at h
      · exact tail h
      · cases h; exact List.suffix_refl _
    · split at h
      · exact tail h
      · exact tail h
      · split at h
        · exact tail h
        · cases h
    · split at h
      · cases h
      · split at h
        · split at h
          · exact tail h
          · cases h
        · exact tail h
    · split at h
      · split at h
        · cases h
        · exact tail h
      · split at h
        · exact tail h
        · dsimp only at h
          split at h
          · cases h; exact List.suffix_cons c rest
          · split at h
            · exact tail h
            · split at h
              · exact tail h
              · exact tail h

end QuotedText

end Yaml

end ScimBridge
