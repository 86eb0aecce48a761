/-!
# Cutting texts

Cutting a text at every occurrence of one character, joining the pieces again, and looking for a
part of a text.

Main statement: joining the pieces gives the text back, and there is always at least one piece.
-/

namespace ScimBridge

/-- The pieces of a text between the occurrences of a separator. -/
def cutAt (sep : Char) : List Char → List (List Char)
  | [] => [[]]
  | c :: cs =>
    if c = sep then [] :: cutAt sep cs
    else match cutAt sep cs with
      | [] => [[c]]
      | piece :: pieces => (c :: piece) :: pieces

/-- Pieces with a separator between each two of them. -/
def joinWith (sep : Char) : List (List Char) → List Char
  | [] => []
  | [piece] => piece
  | piece :: next :: pieces => piece ++ sep :: joinWith sep (next :: pieces)

theorem cutAt_ne_nil (sep : Char) (cs : List Char) : cutAt sep cs ≠ [] := by
  cases cs with
  | nil => simp [cutAt]
  | cons c cs =>
    unfold cutAt
    split
    · simp
    · split <;> simp

theorem joinWith_cutAt (sep : Char) (cs : List Char) : joinWith sep (cutAt sep cs) = cs := by
  induction cs with
  | nil => rfl
  | cons c cs ih =>
    unfold cutAt
    split
    · rename_i h
      cases hp : cutAt sep cs with
      | nil => exact absurd hp (cutAt_ne_nil sep cs)
      | cons piece pieces => rw [hp] at ih; simp [joinWith, ih, h]
    · cases hp : cutAt sep cs with
      | nil => exact absurd hp (cutAt_ne_nil sep cs)
      | cons piece pieces =>
        rw [hp] at ih
        cases pieces with
        | nil => simpa [joinWith] using ih
        | cons next rest => simpa [joinWith] using ih

/-- Whether a part occurs in a text, at any place. -/
def occursIn (part : List Char) : List Char → Bool
  | [] => part.isEmpty
  | c :: cs => part.isPrefixOf (c :: cs) || occursIn part cs

/-- The pieces of a string between the occurrences of a separator. -/
def cutText (sep : Char) (s : String) : List String :=
  (cutAt sep s.toList).map String.ofList

/-- The string without the characters of one kind at its end. -/
def dropEnd (c : Char) (s : String) : String :=
  String.ofList ((s.toList.reverse.dropWhile (· == c)).reverse)

/-- The string without the characters of one kind in front. -/
def dropFront (c : Char) (s : String) : String :=
  String.ofList (s.toList.dropWhile (· == c))

/-- What follows a given beginning of a text. -/
def after? : List Char → List Char → Option (List Char)
  | [], cs => some cs
  | _ :: _, [] => none
  | p :: ps, c :: cs => if p = c then after? ps cs else none

/-- What follows a given beginning of a string. -/
def textAfter? (beginning s : String) : Option String :=
  (after? beginning.toList s.toList).map String.ofList

/-- Whether a string begins with another one. -/
def beginsWith (beginning s : String) : Bool := beginning.toList.isPrefixOf s.toList

/-- Whether a string ends with another one. -/
def finishesWith (ending s : String) : Bool := ending.toList.isSuffixOf s.toList

end ScimBridge
