import ScimBridge.Proofs.Filter.Composition

/-!
# Connectives in a longer text

What is added to a text leaves the connectives in it as they are, so a connective that comes up
newly ends where the text ended or behind it.

1. `search?_append`, `search?_of_append`: the first connective of a text is that of every longer
   text, and conversely if it stands far enough in front of the end.
2. `search?_none_of_search?`: what is not found behind some character is not found without one.
3. `exists_spelled_of_first?`: without dotted capitals, the letters that are found are those that
   stand there.
-/

namespace ScimBridge

/-! ## What is added to a text -/

namespace Connective

/-- A word that ends in front of the end of a text, with a character behind it, stands in the text
if it stands in a longer one. -/
theorem standsAt_of_append {w : Connective} {cs ds lower lower' : List Char}
    (hl : lower <+: lower') (hlen : cs.length ≤ lower.length) (hw : w.word.length < cs.length)
    (h : w.standsAt (cs ++ ds) lower' = true) : w.standsAt cs lower = true := by
  obtain ⟨hword, c, hc, hb⟩ := standsAt_iff.1 h
  rw [List.getElem?_append_left hw] at hc
  exact standsAt_iff.2 ⟨List.prefix_of_prefix_length_le hword hl (by omega), c, hc, hb⟩

/-- Behind a word that is found there is at least one more character. -/
theorem search?_end_lt {before : Option Char} {cur : Cursor} {cs lower : List Char} {i : Nat}
    {w : Connective} (h : search? before cur cs lower = some (i, w)) :
    i + w.word.length < cs.length := by
  obtain ⟨-, c, hc, -⟩ := standsAt_iff.1 (search?_eq_some h).2
  rw [List.getElem?_drop] at hc
  exact (List.getElem?_eq_some_iff.1 hc).1

theorem word_length (w : Connective) : 2 ≤ w.word.length ∧ w.word.length ≤ 3 := by
  cases w <;> decide

theorem isPrefix_tail {lower lower' : List Char} (h : lower <+: lower') :
    lower.tail <+: lower'.tail := by
  obtain ⟨t, rfl⟩ := h
  cases lower with
  | nil => exact List.nil_prefix
  | cons d lower => exact List.prefix_append lower t

section Longer

variable {before : Option Char} {cur : Cursor} {cs lower lower' : List Char} {i : Nat}
  {w : Connective} (ds : List Char) (hl : lower <+: lower') (hlen : cs.length ≤ lower.length)

include hl hlen

/-- The first connective of a text is the first one of every longer text. -/
theorem search?_append (h : search? before cur cs lower = some (i, w)) :
    search? before cur (cs ++ ds) lower' = some (i, w) := by
  induction cs generalizing before cur lower lower' i with
  | nil => cases h
  | cons c cs ih =>
    have hend := search?_end_lt h
    rw [List.cons_append, search?_cons_eq_some_iff]
    rcases search?_cons_eq_some_iff.1 h with ⟨hh, rfl⟩ | ⟨hh, j, hj, rfl⟩
    · obtain ⟨hc, hw⟩ := here?_eq_some_iff.1 hh
      exact .inl ⟨here?_eq_some_iff.2 ⟨hc, standsAt_append ds hl hw⟩, rfl⟩
    · -- the word that is found stands behind here, so what could stand here ends in the text
      have hnone : here? before cur c (cs ++ ds) lower' = none := by
        refine Option.eq_none_iff_forall_ne_some.2 fun u hu => ?_
        obtain ⟨hc, hstands⟩ := here?_eq_some_iff.1 hu
        have hu3 := (word_length u).2
        have hw2 := (word_length w).1
        have hu' := here?_eq_some_iff.2 ⟨hc, standsAt_of_append hl hlen (by omega) hstands⟩
        rw [hh] at hu'
        cases hu'
      have hlen' : cs.length ≤ lower.tail.length := by
        rw [List.length_tail]
        rw [List.length_cons] at hlen
        omega
      exact .inr ⟨hnone, j, ih (isPrefix_tail hl) hlen' hj, rfl⟩

/-- A connective that is found in a longer text in front of the end of a text is the first one of
the text. -/
theorem search?_of_append (h : search? before cur (cs ++ ds) lower' = some (i, w))
    (hi : i + w.word.length < cs.length) : search? before cur cs lower = some (i, w) := by
  induction cs generalizing before cur lower lower' i with
  | nil => cases hi
  | cons c cs ih =>
    rw [List.cons_append, search?_cons_eq_some_iff] at h
    rw [search?_cons_eq_some_iff]
    rcases h with ⟨hh, rfl⟩ | ⟨hh, j, hj, rfl⟩
    · obtain ⟨hc, hstands⟩ := here?_eq_some_iff.1 hh
      have hw : w.word.length < (c :: cs).length := by omega
      exact .inl ⟨here?_eq_some_iff.2 ⟨hc, standsAt_of_append hl hlen hw hstands⟩, rfl⟩
    · rw [List.length_cons] at hlen hi
      have hlen' : cs.length ≤ lower.tail.length := by
        rw [List.length_tail]
        omega
      have hj' : j + w.word.length < cs.length := by omega
      exact .inr ⟨here?_append ds hl hh, j, ih (isPrefix_tail hl) hlen' hj hj', rfl⟩

end Longer

theorem first?_append {cs : List Char} (ds : List Char) {i : Nat} {w : Connective}
    (h : first? cs = some (i, w)) : first? (cs ++ ds) = some (i, w) :=
  search?_append ds (isPrefix_lowerText (List.prefix_append cs ds))
    (by rw [length_lowerText_eq]; omega) h

/-- A connective that comes up newly in a longer text does not end in front of the end of the
text. -/
theorem le_of_first?_append {cs ds : List Char} (hcs : first? cs = none) {i : Nat} {w : Connective}
    (h : first? (cs ++ ds) = some (i, w)) : cs.length ≤ i + w.word.length := by
  by_contra hlt
  have := search?_of_append ds (isPrefix_lowerText (List.prefix_append cs ds))
    (by rw [length_lowerText_eq]; omega) h (Nat.not_le.1 hlt)
  rw [first?] at hcs
  rw [hcs] at this
  cases this

/-! ## What stands in front of a text -/

/-- A text in which nothing is found is skipped in front of everything that goes on with it. -/
theorem skipped_of_search?_eq_none {before : Option Char} {cur : Cursor} {cs ds lower : List Char}
    (h : search? before cur (cs ++ ds) lower = none) : Skipped before cur cs ds lower := by
  induction cs generalizing before cur lower with
  | nil => trivial
  | cons c cs ih =>
    rw [List.cons_append] at h
    cases hh : here? before cur c (cs ++ ds) lower with
    | some w =>
      rw [search?_cons_of_some hh] at h
      cases h
    | none =>
      rw [search?_cons_of_none hh, Option.map_eq_none_iff] at h
      exact ⟨hh, ih h⟩

/-- At the head of a text no connective is found, as none can begin there. -/
theorem here?_none (cur : Cursor) (c : Char) (cs lower : List Char) :
    here? none cur c cs lower = none :=
  if_neg fun hc => by cases hc.2.2.2.2.2

/-- If nothing is found behind some character, nothing is found without one. -/
theorem search?_none_of_search? {before : Option Char} {cur : Cursor} {cs lower : List Char}
    (h : search? before cur cs lower = none) : search? none cur cs lower = none := by
  cases cs with
  | nil => rfl
  | cons c cs =>
    rw [search?_cons_of_none (here?_none cur c cs lower), Option.map_eq_none_iff]
    cases hh : here? before cur c cs lower with
    | some v =>
      rw [search?_cons_of_some hh] at h
      cases h
    | none => rwa [search?_cons_of_none hh, Option.map_eq_none_iff] at h

/-- Behind a `not` and blanks the search goes on as behind some character. -/
theorem exists_first?_not {kw gap : List Char} (hkw : lowerText kw = ['n', 'o', 't'])
    (hgap : allBlank gap = true) :
    ∃ before k, ∀ cs, first? (kw ++ (gap ++ cs)) =
      (search? before Cursor.start cs (lowerText cs)).map (shift k) := by
  obtain ⟨hI, hletters⟩ := Filter.letters_of_not hkw
  refine ⟨gap.getLast?.or (kw.getLast?.or none), gap.length + kw.length, fun cs => ?_⟩
  unfold first?
  rw [(passed_letters rfl hI hletters).search?, (passed_blanks _ hgap).search?,
    map_shift_map_shift]

/-! ## The letters of a connective -/

/-- Behind the character in front of it a connective may follow. -/
theorem mayFollow_of_search? {before : Option Char} {cur : Cursor} {cs lower : List Char} {i : Nat}
    {w : Connective} (h : search? before cur cs lower = some (i, w)) :
    mayFollow ((cs.take i).getLast?.or before) = true := by
  induction cs generalizing before cur lower i with
  | nil => cases h
  | cons c cs ih =>
    rcases search?_cons_eq_some_iff.1 h with ⟨hh, rfl⟩ | ⟨-, j, hj, rfl⟩
    · exact (here?_eq_some_iff.1 hh).1.2.2.2.2.2
    · have := ih hj
      rw [List.take_succ_cons, List.getLast?_cons]
      cases hl : (cs.take j).getLast? <;> rw [hl] at this <;> exact this

/-- Without dotted capitals, a connective that is found is spelled there, outside literals and
parentheses, between a blank or a closing parenthesis and a blank or an opening one. -/
theorem exists_spelled_of_first? {cs : List Char} (hI : 'İ' ∉ cs) {i : Nat} {w : Connective}
    (h : first? cs = some (i, w)) :
    ∃ front kw c rest, cs = front ++ (kw ++ c :: rest) ∧ front.length = i ∧
      lowerText kw = w.word ∧ Cursor.start.behind front = Cursor.start ∧
      mayFollow front.getLast? = true ∧ (isBlank c = true ∨ c = '(') := by
  have hlt := first?_lt h
  obtain ⟨hcur, hstands⟩ := search?_eq_some h
  have hfollow := mayFollow_of_search? h
  rw [Option.or_none] at hfollow
  obtain ⟨hword, c, hc, hend⟩ := standsAt_iff.1 hstands
  obtain ⟨hlen, hget⟩ := List.getElem?_eq_some_iff.1 hc
  have hIi : 'İ' ∉ cs.drop i := fun hmem => hI (List.mem_of_mem_drop hmem)
  rw [lowerText_eq_map hI, ← List.map_drop, List.prefix_iff_eq_take, ← List.map_take] at hword
  refine ⟨cs.take i, (cs.drop i).take w.word.length, c, (cs.drop i).drop (w.word.length + 1), ?_,
    List.length_take_of_le (Nat.le_of_lt hlt), ?_, hcur, hfollow, hend⟩
  · rw [← hget, ← List.drop_eq_getElem_cons hlen, List.take_append_drop, List.take_append_drop]
  · rw [lowerText_eq_map fun hmem => hIi (List.mem_of_mem_take hmem)]
    exact hword.symm

end Connective

end ScimBridge
