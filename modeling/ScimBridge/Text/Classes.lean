import ScimBridge.Text.WordRuns
import ScimBridge.Text.HiddenRuns

/-!
# Character classes

Word characters, decimal digits of every script and hidden characters. The first and the last are
kept as run lengths, the digits as the place of each script's zero: the ten digits of a script
always stand side by side.
-/

namespace ScimBridge

/-- Whether position `n` lies in an inside run of an alternating list that begins outside. -/
def inRuns : List Nat → Nat → Bool
  | [], _ => false
  | [outside], n => decide (outside ≤ n)
  | outside :: inside :: rest, n =>
    if n < outside then false
    else if n < outside + inside then true
    else inRuns rest (n - (outside + inside))

/-- Letters, digits, other numeric characters and the underscore. -/
def isWordChar (c : Char) : Bool :=
  if c.toNat < 128 then c.isAlphanum || c == '_' else inRuns wordRuns c.toNat

/-- Characters that are written as an escape inside a quoted value. -/
def isHidden (c : Char) : Bool :=
  if c.toNat < 127 then decide (c.toNat < 32) else inRuns hiddenRuns c.toNat

/-- The code points of the digit zero, script by script. -/
def zeros : List Nat :=
  [0x30, 0x660, 0x6f0, 0x7c0, 0x966, 0x9e6, 0xa66, 0xae6, 0xb66, 0xbe6, 0xc66, 0xce6, 0xd66, 0xde6,
  0xe50, 0xed0, 0xf20, 0x1040, 0x1090, 0x17e0, 0x1810, 0x1946, 0x19d0, 0x1a80, 0x1a90, 0x1b50,
  0x1bb0, 0x1c40, 0x1c50, 0xa620, 0xa8d0, 0xa900, 0xa9d0, 0xa9f0, 0xaa50, 0xabf0, 0xff10, 0x104a0,
  0x10d30, 0x11066, 0x110f0, 0x11136, 0x111d0, 0x112f0, 0x11450, 0x114d0, 0x11650, 0x116c0,
  0x11730, 0x118e0, 0x11950, 0x11c50, 0x11d50, 0x11da0, 0x16a60, 0x16ac0, 0x16b50, 0x1d7ce,
  0x1d7d8, 0x1d7e2, 0x1d7ec, 0x1d7f6, 0x1e140, 0x1e2f0, 0x1e950, 0x1fbf0]

/-- The value of a decimal digit of any script. -/
def decimalDigit? (c : Char) : Option Nat :=
  (zeros.find? fun z => z ≤ c.toNat && c.toNat < z + 10).map (c.toNat - ·)

/-- Decimal digits of any script. -/
def isDecimal (c : Char) : Bool := (decimalDigit? c).isSome

/-- The letters `a` to `z` and `A` to `Z`. -/
def isLatinLetter (c : Char) : Bool := c.isAlpha

/-- The lower case of a character, as far as keywords need it: the letters `A` to `Z`, and the
dotted capital I, the one character whose lower case is two characters long. No other character
has a lower case made of letters that occur in a keyword. -/
def lowerChars (c : Char) : List Char :=
  if c == 'İ' then ['i', '\u0307'] else [c.toLower]

/-- The lower case of a text; see `lowerChars`. -/
def lowerText (cs : List Char) : List Char := cs.flatMap lowerChars

/-- The lower case of a string; see `lowerChars`. -/
def lowered (s : String) : String := String.ofList (lowerText s.toList)

/-- Only the dotted capital I grows when it is put into lower case. -/
theorem length_lowerChars (c : Char) :
    (lowerChars c).length = if c == 'İ' then 2 else 1 := by
  unfold lowerChars; split <;> rfl

end ScimBridge
