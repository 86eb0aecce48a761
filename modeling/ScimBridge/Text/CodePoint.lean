/-!
# Code points as characters

The texts of documents are sequences of code points, and halves of surrogate pairs may stand among
them. A half is no character, so a text spells it with two characters: a mark, and a private
character for the half. The mark on its own is written twice. Every other code point is spelled by
the character that it is.

Main statements: the points of a spelling are the points that were spelled, so that no two
sequences of code points have one spelling.
-/

namespace ScimBridge

namespace CodePoint

/-- The number behind the last code point. -/
def limit : Nat := 0x110000

/-- Whether a code point is half of a surrogate pair. -/
def isHalf (n : Nat) : Bool := 0xD800 ≤ n && n < 0xE000

/-- The code point of the character in front of those that say what is meant. It is set aside for
uses inside programs. -/
def markPoint : Nat := 0xEFFFE

/-- The mark. -/
def mark : Char := Char.ofNat markPoint

/-- The distance from the halves to the private characters behind the mark. -/
def halfOffset : Nat := 0xE8000

/-- The code point that a character behind the mark says. -/
def marked? (c : Char) : Option Nat :=
  if c.toNat = markPoint then some markPoint
  else if isHalf (c.toNat - halfOffset) then some (c.toNat - halfOffset)
  else none

/-- The spelling of a code point. -/
def spelling (n : Nat) : List Char :=
  if n = markPoint then [mark, mark]
  else if isHalf n then [mark, Char.ofNat (n + halfOffset)]
  else [Char.ofNat n]

/-- The code points of a text. A mark behind which nothing is said stands for itself. -/
def points : List Char → List Nat
  | [] => []
  | [c] => [c.toNat]
  | c :: d :: rest =>
    match if c = mark then marked? d else none with
    | some n => n :: points rest
    | none => c.toNat :: points (d :: rest)

/-- The text of code points. -/
def textOf (ps : List Nat) : String := String.ofList (ps.flatMap spelling)

/-- The text of plain characters. -/
def textOfPlain (cs : List Char) : String := textOf (cs.map Char.toNat)

/-- The plain characters of a text, if it holds no halves. -/
def plain? (cs : List Char) : Option (List Char) :=
  let ps := points cs
  if ps.any isHalf then none else some (ps.map Char.ofNat)

/-- The plain characters of a text, with replacement characters for halves. -/
def replaced (cs : List Char) : List Char :=
  (points cs).map fun n => if isHalf n then '\uFFFD' else Char.ofNat n

/-! ## Spellings are read back -/

theorem toNat_ofNat {n : Nat} (h : n < limit) (hn : isHalf n = false) :
    (Char.ofNat n).toNat = n := by
  have hv : n.isValidChar := by
    simp only [isHalf, Bool.and_eq_false_iff, decide_eq_false_iff_not] at hn
    unfold limit at h
    unfold Nat.isValidChar
    omega
  rw [Char.ofNat, dif_pos hv]
  rfl

theorem toNat_mark : mark.toNat = markPoint := toNat_ofNat (by decide) (by decide)

theorem marked?_mark : marked? mark = some markPoint := if_pos toNat_mark

theorem marked?_half {n : Nat} (h : isHalf n = true) :
    marked? (Char.ofNat (n + halfOffset)) = some n := by
  have hn : 0xD800 ≤ n ∧ n < 0xE000 := by simpa [isHalf] using h
  have hc : (Char.ofNat (n + halfOffset)).toNat = n + halfOffset :=
    toNat_ofNat (by unfold limit halfOffset; omega)
      (Bool.and_eq_false_iff.2 (.inr (decide_eq_false (by unfold halfOffset; omega))))
  have hm : n + halfOffset ≠ markPoint := by unfold halfOffset markPoint; omega
  unfold marked?
  rw [hc, if_neg hm, Nat.add_sub_cancel, if_pos h]

theorem points_marked {c : Char} {n : Nat} (h : marked? c = some n) (rest : List Char) :
    points (mark :: c :: rest) = n :: points rest := by
  simp [points, h]

theorem points_cons {c : Char} (h : c ≠ mark) (rest : List Char) :
    points (c :: rest) = c.toNat :: points rest := by
  cases rest <;> simp [points, h]

/-- A spelling is read back, whatever follows it. -/
theorem points_spelling {n : Nat} (h : n < limit) (rest : List Char) :
    points (spelling n ++ rest) = n :: points rest := by
  unfold spelling
  split
  · subst n
    exact points_marked marked?_mark rest
  · split
    · exact points_marked (marked?_half ‹_›) rest
    · have hc := toNat_ofNat h (by simpa using ‹¬isHalf n = true›)
      have hm : Char.ofNat n ≠ mark := fun hm => by
        rw [hm, toNat_mark] at hc
        exact ‹¬n = markPoint› hc.symm
      rw [List.singleton_append, points_cons hm, hc]

/-- The points of a text are those of which it was made. -/
theorem points_flatMap_spelling {ps : List Nat} (h : ∀ n ∈ ps, n < limit) :
    points (ps.flatMap spelling) = ps := by
  induction ps with
  | nil => rfl
  | cons n ps ih =>
    rw [List.flatMap_cons, points_spelling (h n (by simp)),
      ih fun m hm => h m (List.mem_cons_of_mem n hm)]

/-- Different points make different texts. -/
theorem textOf_injective {ps qs : List Nat} (hp : ∀ n ∈ ps, n < limit) (hq : ∀ n ∈ qs, n < limit)
    (h : textOf ps = textOf qs) : ps = qs := by
  have h : ps.flatMap spelling = qs.flatMap spelling := String.ofList_injective h
  rw [← points_flatMap_spelling hp, ← points_flatMap_spelling hq, h]

/-- A text without the mark has its own characters as code points. -/
theorem points_of_forall_ne {cs : List Char} (h : ∀ c ∈ cs, c ≠ mark) :
    points cs = cs.map Char.toNat := by
  induction cs with
  | nil => rfl
  | cons c cs ih =>
    rw [points_cons (h c (by simp)), ih fun d hd => h d (List.mem_cons_of_mem c hd), List.map_cons]

end CodePoint

end ScimBridge
