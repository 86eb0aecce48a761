import ScimBridge.Text.Case
import ScimBridge.Text.FoldTables

/-!
# Folded texts

A folded text is one whose letters have lost their case and their form: ligatures, letters in rings
and letters of another width become plain ones, and a letter with its marks becomes the one character
that they make, whatever the order of the marks.

Main statement: on its own, an ASCII character only loses its case.
-/

namespace ScimBridge

namespace Folded

/-- The character that a character becomes by its form. -/
def foldedPoint? (n : Nat) : Option Nat :=
  (foldRuns.find? fun (first, count, _) => first ≤ n && n < first + count).map
    fun (first, _, target) => target + (n - first)

/-- What a character becomes on its own. -/
def letters (c : Char) : List Char :=
  if c.toNat < 128 then [c.toLower]
  else match longFolds.find? fun p => p.1 == c.toNat with
    | some (_, points) => points.map Char.ofNat
    | none => [Char.ofNat ((foldedPoint? c.toNat).getD (shifted lowerRuns c.toNat))]

/-- The class of a mark; 0 for what is none. -/
def markClass (c : Char) : Nat :=
  match markRuns.find? fun (first, count, _) => first ≤ c.toNat && c.toNat < first + count with
  | some (_, _, markClass) => markClass
  | none => 0

/-- The most marks that one character stands for. -/
def maxMarks : Nat := 3

/-- A character as a letter and its marks, of which at most a number are taken off. -/
def taken : Nat → Char → List Char
  | 0, c => [c]
  | n + 1, c =>
    if c.toNat < 128 then [c]
    else match compositions.find? fun (_, _, whole) => whole == c.toNat with
      | some (letter, mark, _) => taken n (Char.ofNat letter) ++ [Char.ofNat mark]
      | none => [c]

/-- Put a character behind others, which stand in reverse; a mark goes in front of those of a higher
class. -/
def insertMark (c : Char) : List Char → List Char
  | [] => [c]
  | d :: rest =>
    if 0 < markClass c ∧ markClass c < markClass d then d :: insertMark c rest else c :: d :: rest

/-- The characters with their marks in order. -/
def ordered (cs : List Char) : List Char :=
  (cs.foldl (fun behind c => insertMark c behind) []).reverse

/-- The one character that a letter and a mark make. -/
def composed? (letter mark : Char) : Option Char :=
  (compositions.find? fun (a, b, _) => a == letter.toNat && b == mark.toNat).map
    fun (_, _, whole) => Char.ofNat whole

/-- The text with letters and marks made one where they can be: `marks` are those that stand
between the letter and what comes next, in reverse. -/
def joined (letter : Char) (marks : List Char) : List Char → List Char
  | [] => letter :: marks.reverse
  | c :: rest =>
    let reaches := match marks with
      | [] => true
      | mark :: _ => decide (markClass mark < markClass c)
    match if reaches then composed? letter c else none with
    | some whole => joined whole marks rest
    | none =>
      if markClass c = 0 then letter :: marks.reverse ++ joined c [] rest
      else joined letter (c :: marks) rest

/-- The folded form of a text. -/
def ofChars (cs : List Char) : List Char :=
  match ordered ((cs.flatMap letters).flatMap (taken maxMarks)) with
  | [] => []
  | c :: rest => joined c [] rest

theorem letters_of_ascii {c : Char} (h : c.toNat < 128) : letters c = [c.toLower] := by
  simp [letters, h]

theorem taken_of_ascii {c : Char} (h : c.toNat < 128) (n : Nat) : taken n c = [c] := by
  cases n <;> simp [taken, h]

end Folded

end ScimBridge
