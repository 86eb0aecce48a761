import ScimBridge.Proofs.Text.Trim
import ScimBridge.Text.Classes

/-!
# Texts in lower case

A text without the dotted capital I keeps its length in lower case, so an index into it is an index
into its lower case (`drop_lowerText`). Blanks are their own lower case, and what is a word in lower
case is made of Latin letters (`letters_of_lowerText`).
-/

namespace ScimBridge

/-! ## Length -/

theorem lowerText_append (cs ds : List Char) :
    lowerText (cs ++ ds) = lowerText cs ++ lowerText ds :=
  List.flatMap_append

theorem lowerChars_of_ne {c : Char} (h : c ≠ 'İ') : lowerChars c = [c.toLower] := by
  unfold lowerChars
  rw [if_neg (by simpa using h)]

theorem lowerText_cons {c : Char} (h : c ≠ 'İ') (cs : List Char) :
    lowerText (c :: cs) = c.toLower :: lowerText cs := by
  rw [lowerText, List.flatMap_cons, lowerChars_of_ne h]
  rfl

/-- A text without the dotted capital I has its own letters in lower case. -/
theorem lowerText_eq_map {cs : List Char} (h : 'İ' ∉ cs) : lowerText cs = cs.map Char.toLower := by
  induction cs with
  | nil => rfl
  | cons c cs ih =>
    rw [List.mem_cons, not_or] at h
    rw [lowerText_cons (Ne.symm h.1), ih h.2, List.map_cons]

/-- Each dotted capital I makes the lower case one character longer. -/
theorem length_lowerText_eq (cs : List Char) :
    (lowerText cs).length = cs.length + cs.count 'İ' := by
  induction cs with
  | nil => rfl
  | cons c cs ih =>
    rw [lowerText, List.flatMap_cons, List.length_append, length_lowerChars, List.count_cons,
      List.length_cons]
    rw [lowerText] at ih
    rw [ih]
    split <;> omega

theorem length_lowerText {cs : List Char} (h : 'İ' ∉ cs) :
    (lowerText cs).length = cs.length := by
  rw [length_lowerText_eq, List.count_eq_zero.2 h, Nat.add_zero]

theorem isPrefix_lowerText {cs ds : List Char} (h : cs <+: ds) : lowerText cs <+: lowerText ds := by
  obtain ⟨t, rfl⟩ := h
  rw [lowerText_append]
  exact List.prefix_append _ _

/-- Behind a text without the dotted capital I, the lower case stands at the same index. -/
theorem drop_lowerText {cs : List Char} (h : 'İ' ∉ cs) (ds : List Char) :
    (lowerText (cs ++ ds)).drop cs.length = lowerText ds := by
  rw [lowerText_append, ← length_lowerText h, List.drop_left]

/-! ## Blanks and letters -/

theorem isBlank_ne {c d : Char} (hc : isBlank c = true) (hd : isBlank d = false) : c ≠ d := by
  rintro rfl
  rw [hc] at hd
  cases hd

/-- The code points of the blanks. -/
def blankPoints : List Nat :=
  [9, 10, 11, 12, 13, 28, 29, 30, 31, 32, 0x85, 0xA0, 0x1680, 0x2000, 0x2001, 0x2002, 0x2003,
  0x2004, 0x2005, 0x2006, 0x2007, 0x2008, 0x2009, 0x200A, 0x2028, 0x2029, 0x202F, 0x205F, 0x3000]

theorem mem_blankPoints {c : Char} (h : isBlank c = true) : c.toNat ∈ blankPoints := by
  unfold isBlank at h
  simp only [Bool.or_eq_true, Bool.and_eq_true, decide_eq_true_eq, beq_iff_eq] at h
  simp only [blankPoints, List.mem_cons, List.not_mem_nil, or_false]
  omega

/-- A class that holds no blank, checked blank by blank, holds no blank character. -/
theorem eq_false_of_isBlank {p : Char → Bool}
    (hp : ∀ n ∈ blankPoints, p (Char.ofNat n) = false) {c : Char} (h : isBlank c = true) :
    p c = false := by
  rw [← Char.ofNat_toNat c]
  exact hp _ (mem_blankPoints h)

theorem isLatinLetter_of_isBlank {c : Char} (h : isBlank c = true) : isLatinLetter c = false :=
  eq_false_of_isBlank (by decide +kernel) h

theorem lowerText_blanks {cs : List Char} (h : allBlank cs = true) : lowerText cs = cs := by
  have hlower {c : Char} (hc : isBlank c = true) : lowerChars c = [c] := by
    have := eq_false_of_isBlank (p := fun c => lowerChars c != [c]) (by decide +kernel) hc
    simpa using this
  induction cs with
  | nil => rfl
  | cons c cs ih =>
    obtain ⟨hc, hcs⟩ := List.forall_mem_cons.1 (allBlank_iff.1 h)
    rw [lowerText, List.flatMap_cons, hlower hc]
    exact congrArg (c :: ·) (ih (allBlank_iff.2 hcs))

theorem isLatinLetter_of_toLower {c : Char} (h : isLatinLetter c.toLower = true) :
    isLatinLetter c = true := by
  by_cases hu : c.isUpper = true
  · show (c.isUpper || c.isLower) = true
    rw [hu]
    rfl
  · have hl : c.toLower = c := dif_neg fun hle => hu (decide_eq_true hle)
    rwa [hl] at h

/-- What is a word in lower case is made of Latin letters. -/
theorem letters_of_lowerText {kw word : List Char} (h : lowerText kw = word)
    (hword : ∀ c ∈ word, isLatinLetter c = true) :
    'İ' ∉ kw ∧ ∀ c ∈ kw, isLatinLetter c = true := by
  have hI : 'İ' ∉ kw := by
    intro hI
    have : '\u0307' ∈ lowerText kw := List.mem_flatMap.2 ⟨'İ', hI, by decide⟩
    rw [h] at this
    exact absurd (hword _ this) (by decide)
  refine ⟨hI, fun c hc => isLatinLetter_of_toLower (hword _ ?_)⟩
  rw [← h, lowerText_eq_map hI]
  exact List.mem_map_of_mem hc

theorem plain_of_letters {cs : List Char} (h : ∀ c ∈ cs, isLatinLetter c = true) :
    ∀ c ∈ cs, c ≠ '"' ∧ c ≠ '(' ∧ c ≠ ')' ∧ isBlank c = false := by
  intro c hc
  have hl := h c hc
  refine ⟨?_, ?_, ?_, ?_⟩
  · rintro rfl
    cases hl
  · rintro rfl
    cases hl
  · rintro rfl
    cases hl
  · cases hb : isBlank c with
    | false => rfl
    | true =>
      rw [isLatinLetter_of_isBlank hb] at hl
      cases hl

theorem not_mem_of_allBlank {c : Char} (hc : isBlank c = false) {cs : List Char}
    (h : allBlank cs = true) : c ∉ cs := by
  intro hmem
  rw [allBlank_iff.1 h c hmem] at hc
  cases hc

end ScimBridge
