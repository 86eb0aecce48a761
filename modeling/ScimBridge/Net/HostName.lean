import ScimBridge.Text.Folded
import ScimBridge.Text.Punycode
import ScimBridge.Text.Split

/-!
# Host names

A host name is a list of labels with points between them. A label with letters of any script has an
ASCII form, which is marked as such; before it is written the label is folded, and labels with
characters that have no place in a name, or with both directions of writing mixed up, are refused.

Main statement: the ASCII form of a label is ASCII and neither empty nor long.
-/

namespace ScimBridge

namespace HostName

/-- Whether a character is ASCII. -/
def isAscii (c : Char) : Bool := c.toNat < 128

/-- The points between labels, those of other scripts included. -/
def isPoint (c : Char) : Bool :=
  c == '.' || c == '\u3002' || c == '\uFF0E' || c == '\uFF61'

/-- Characters that count for nothing in a label. -/
def isIgnored (c : Char) : Bool :=
  let n := c.toNat
  n == 0xAD || n == 0x34F || n == 0x1806 || (0x180B ≤ n && n ≤ 0x180D)
    || (0x200B ≤ n && n ≤ 0x200D) || n == 0x2060 || (0xFE00 ≤ n && n ≤ 0xFE0F) || n == 0xFEFF

/-- Bounds of the runs of characters that have no place in a label. -/
def refusedRuns : List (Nat × Nat) :=
  [(0x80, 0xA0), (0x340, 0x341), (0x6DD, 0x6DD), (0x70F, 0x70F), (0x1680, 0x1680),
   (0x180E, 0x180E), (0x2000, 0x200F), (0x2028, 0x202F), (0x205F, 0x2063), (0x206A, 0x206F),
   (0x2FF0, 0x2FFB), (0x3000, 0x3000), (0xD800, 0xF8FF), (0xFDD0, 0xFDEF), (0xFFF9, 0xFFFF),
   (0x1D173, 0x1D17A), (0xE0001, 0xE0001), (0xE0020, 0xE007F), (0xF0000, 0x10FFFF)]

/-- Whether a character has no place in a label; the last two of every plane are no characters. -/
def isRefused (c : Char) : Bool :=
  refusedRuns.any (fun (first, last) => first ≤ c.toNat && c.toNat ≤ last)
    || c.toNat % 0x10000 ≥ 0xFFFE

/-- Characters that run from right to left. -/
def isRightToLeft (c : Char) : Bool := inRuns rightToLeftRuns c.toNat

/-- Characters that run from left to right. -/
def isLeftToRight (c : Char) : Bool := inRuns leftToRightRuns c.toNat

/-- Whether the directions of writing in a label fit: where there are characters from right to left,
the label begins and ends with one, and there are none from left to right. -/
def runsOneWay (cs : List Char) : Bool :=
  !cs.any isRightToLeft
    || (!cs.any isLeftToRight && cs.head?.any isRightToLeft && cs.getLast?.any isRightToLeft)

/-- A label as it is compared. -/
def prepared? (label : List Char) : Option (List Char) :=
  let folded := Folded.ofChars (label.filter fun c => !isIgnored c)
  if folded.any isRefused || !runsOneWay folded then none else some folded

/-- A number that labels stay below in length. -/
def labelLimit : Nat := 64

/-- A label that is neither empty nor long. -/
def fitting? (label : List Char) : Option (List Char) :=
  if 0 < label.length ∧ label.length < labelLimit then some label else none

/-- The mark of an ASCII form. -/
def asciiMark : List Char := ['x', 'n', '-', '-']

/-- The ASCII form of a label. -/
def labelToAscii? (label : List Char) : Option (List Char) :=
  if label.all isAscii then fitting? label
  else do
    let folded ← prepared? label
    if folded.all isAscii then fitting? folded
    else if asciiMark.isPrefixOf folded then none
    else
      let written := asciiMark ++ Punycode.encode folded
      if written.all isAscii then fitting? written else none

theorem labelToAscii?_eq_some {label ascii : List Char} (h : labelToAscii? label = some ascii) :
    ascii.all isAscii ∧ 0 < ascii.length ∧ ascii.length < labelLimit := by
  have fit : ∀ {cs out : List Char}, cs.all isAscii = true → fitting? cs = some out →
      out.all isAscii ∧ 0 < out.length ∧ out.length < labelLimit := by
    intro cs out hc ho
    unfold fitting? at ho
    split at ho
    · rename_i hl
      cases ho
      exact ⟨hc, hl⟩
    · cases ho
  unfold labelToAscii? at h
  split at h
  · exact fit ‹_› h
  · cases hp : prepared? label with
    | none => simp [hp] at h
    | some folded =>
      simp only [hp, Option.bind_eq_bind, Option.bind_some] at h
      split at h
      · exact fit ‹_› h
      · split at h
        · cases h
        · split at h
          · exact fit ‹_› h
          · cases h

/-- A label behind its ASCII form; one without the mark of such a form is its own. -/
def labelOfAscii? (label : List Char) : Option (List Char) :=
  match after? asciiMark label with
  | none => some label
  | some written => do
    let text ← Punycode.decode? written
    let again ← labelToAscii? text
    if again = label.map Char.toLower then some text else none

/-- The pieces of a text between the points of any script. -/
def labelsOf (cs : List Char) : List (List Char) :=
  cutAt '.' (cs.map fun c => if isPoint c then '.' else c)

/-- Labels joined by points, the last of which may be empty. -/
def mapLabels? (f : List Char → Option (List Char)) (labels : List (List Char)) :
    Option (List Char) :=
  match labels.reverse with
  | [] :: front => do
    let done ← front.reverse.mapM f
    return joinWith '.' done ++ (['.'] : List Char)
  | _ => do return joinWith '.' (← labels.mapM f)

/-- Whether an ASCII name has no long labels, and no empty ones but perhaps the last. -/
def hasFittingLabels (name : List Char) : Bool :=
  let labels := cutAt '.' name
  labels.all (·.length < labelLimit) && labels.dropLast.all (!·.isEmpty)

/-- The ASCII form of a name. -/
def toAscii? (name : String) : Option String :=
  let cs := name.toList
  if cs.all isAscii then if hasFittingLabels cs then some name else none
  else (mapLabels? labelToAscii? (labelsOf cs)).map String.ofList

/-- The name behind an ASCII form; a name that is not ASCII is its own. -/
def ofAscii? (name : String) : Option String :=
  let cs := name.toList
  if cs.all isAscii && occursIn asciiMark cs then
    (mapLabels? labelOfAscii? (cutAt '.' cs)).map String.ofList
  else some name

/-! ## Names in requests -/

/-- Characters of the names of hosts. -/
def isNameChar (c : Char) : Bool := c.isAlphanum || c == '.' || c == '-'

/-- Whether a text is an address in brackets: hexadecimal digits and colons, with points behind the
first colon, and something behind it. -/
def isBracketed (cs : List Char) : Bool :=
  let isHex (c : Char) : Bool := c.isDigit || ('a' ≤ c.toLower && c.toLower ≤ 'f')
  match cs with
  | '[' :: inner =>
    match inner.dropWhile isHex with
    | ':' :: rest =>
      match rest.reverse with
      | ']' :: last :: front => (last :: front).all fun c => isHex c || c == '.' || c == ':'
      | _ => false
    | _ => false
  | _ => false

/-- Whether a text is a port with a colon in front: a number without leading zeros. -/
def isPort : List Char → Bool
  | [] => true
  | ':' :: d :: digits => d.isDigit && d != '0' && digits.all Char.isDigit
  | _ => false

/-- Whether a text is a name or an address in brackets, perhaps with a port. -/
def isPlain (host : String) : Bool :=
  let cs := host.toList
  let name := if cs.head? == some '[' then cs.take ((cs.takeWhile (· != ']')).length + 1)
    else cs.takeWhile (· != ':')
  let isHost := if cs.head? == some '[' then isBracketed name
    else !name.isEmpty && name.all isNameChar
  isHost && isPort (cs.drop name.length)

end HostName

end ScimBridge
