import ScimBridge.Text.CaseTables
import ScimBridge.Text.Classes

/-!
# Upper and lower case

Texts in upper and in lower case, for all scripts. Some characters grow when they are put into upper
case. The capital sigma has two small letters: one at the end of a word and one everywhere else.
-/

namespace ScimBridge

/-- The code point that a table of runs maps a code point to, if it holds it. -/
def shifted? (runs : List (Nat × Nat × Nat × Int)) (n : Nat) : Option Nat :=
  let hit (run : Nat × Nat × Nat × Int) : Bool :=
    let (first, step, count, _) := run
    first ≤ n && (n - first) % step == 0 && (n - first) / step < count
  (runs.find? hit).map fun (_, _, _, shift) => ((n : Int) + shift).toNat

/-- The code point that a table of runs maps a code point to; others stay as they are. -/
def shifted (runs : List (Nat × Nat × Nat × Int)) (n : Nat) : Nat := (shifted? runs n).getD n

/-- The upper case of a character. -/
def upperCaseChars (c : Char) : List Char :=
  match longUpper.find? fun p => p.1 == c.toNat with
  | some (_, points) => points.map Char.ofNat
  | none => [Char.ofNat (shifted upperRuns c.toNat)]

/-- The upper case of a string. -/
def upperCase (s : String) : String := String.ofList (s.toList.flatMap upperCaseChars)

/-- Whether a word ends here: the first character that does not belong to the inside of a word is no
letter with a case. -/
def endsWord (cs : List Char) : Bool :=
  match cs.dropWhile fun c => inRuns ignorableRuns c.toNat with
  | [] => true
  | c :: _ => !inRuns casedRuns c.toNat

/-- The lower case of a character between the characters before it, in reverse, and those behind. -/
def lowerCaseChars (before : List Char) (c : Char) (behind : List Char) : List Char :=
  if c = 'Σ' then [if !endsWord before && endsWord behind then 'ς' else 'σ']
  else if c = 'İ' then ['i', '\u0307']
  else [Char.ofNat (shifted lowerRuns c.toNat)]

/-- The lower case of a text behind the characters before it, in reverse. -/
def lowerCaseFrom (before : List Char) : List Char → List Char
  | [] => []
  | c :: cs => lowerCaseChars before c cs ++ lowerCaseFrom (c :: before) cs

/-- The lower case of a string. -/
def lowerCase (s : String) : String := String.ofList (lowerCaseFrom [] s.toList)

end ScimBridge
