import ScimBridge.Proofs.Filter.Balance
import ScimBridge.Proofs.Text.LowerCase
import ScimBridge.Proofs.Text.Trim

/-!
# Closing parentheses and the search for connectives

Both scans walk the same way as the cursor, so what they find behind a piece of text depends on that
piece only through the cursor behind it.

1. `closingIndex?_append`: the scan for a closing parenthesis, piece by piece; inside a balanced
   text it finds none of an outer group, so a group is read as a group (`groupInterior?_group`).
2. `search?_skipped`: behind a piece in which no connective is found, the search goes on with the
   lower case at the same distance. Literals and groups are such pieces (`Sheltered.skipped`), and
   so are blanks and words that do not follow one.
3. `first?_trim_take`: what stands in front of the first connective holds no connective itself.
-/

namespace ScimBridge

open Cursor

/-! ## Closing parentheses -/

theorem closingIndex?_cons (cur : Cursor) (c : Char) (cs : List Char) :
    closingIndex? cur (c :: cs) =
      if cur.place = .outside ∧ c = ')' ∧ cur.depth = 1 then some 0
      else (closingIndex? (cur.step c) cs).map (· + 1) := rfl

theorem closingIndex?_append (cur : Cursor) (cs ds : List Char) :
    closingIndex? cur (cs ++ ds) =
      (closingIndex? cur cs).or ((closingIndex? (cur.behind cs) ds).map (· + cs.length)) := by
  induction cs generalizing cur with
  | nil =>
    show closingIndex? cur ds = Option.or none ((closingIndex? cur ds).map (· + 0))
    simp
  | cons c cs ih =>
    rw [List.cons_append, closingIndex?_cons, closingIndex?_cons, ih]
    split
    · rfl
    · rw [Option.map_or, behind_cons, Option.map_map]
      congr 2

/-- Nothing that is closed inside a literal closes a group. -/
theorem closingIndex?_content {b : List Char} (hb : Literal.Content b) (d : Int) :
    closingIndex? ⟨.inside, d⟩ b = none := by
  induction hb with
  | nil => rfl
  | plain hq hs _ ih =>
    rw [closingIndex?_cons, step_content hq hs, ih, if_neg (by simp)]
    rfl
  | escaped _ ih =>
    rw [closingIndex?_cons, closingIndex?_cons, step_backslash, step_escaped, ih,
      if_neg (by simp), if_neg (by simp)]
    rfl

theorem closingIndex?_enclosed {b : List Char} (hb : Literal.Content b) (d : Int) :
    closingIndex? ⟨.outside, d⟩ (Literal.enclosed b) = none := by
  rw [Literal.enclosed, List.cons_append, closingIndex?_cons, if_neg (by simp), step_quote,
    closingIndex?_append, closingIndex?_content hb, behind_content hb, closingIndex?_cons,
    if_neg (by simp)]
  rfl

/-- A balanced text closes no group that was opened in front of it. -/
theorem closingIndex?_balanced {cs : List Char} (h : Balanced cs) {d : Int} (hd : 0 < d) :
    closingIndex? ⟨.outside, d⟩ cs = none := by
  induction h generalizing d with
  | nil => rfl
  | @plain c cs hq ho hs _ ih =>
    rw [closingIndex?_cons, step_plain hq ho hs, ih hd, if_neg (fun h => hs h.2.1)]
    rfl
  | literal hb _ ih =>
    rw [closingIndex?_append, closingIndex?_enclosed hb, behind_enclosed hb, ih hd]
    rfl
  | group hi _ ihi ih =>
    have hout : ¬ d + 1 = 1 := by omega
    rw [List.cons_append, closingIndex?_cons, step_open, closingIndex?_append,
      ihi (show 0 < d + 1 by omega), behind_balanced hi, closingIndex?_cons, step_close,
      Int.add_sub_cancel, ih hd, if_neg (by simp), if_neg (fun h => hout h.2.2)]
    rfl

/-- What the scan finds is a closing parenthesis. -/
theorem getElem?_of_closingIndex? {cur : Cursor} {cs : List Char} {i : Nat}
    (h : closingIndex? cur cs = some i) : cs[i]? = some ')' := by
  induction cs generalizing cur i with
  | nil => cases h
  | cons c cs ih =>
    rw [closingIndex?_cons] at h
    split at h
    · rename_i hc
      cases h
      rw [hc.2.1]
      rfl
    · obtain ⟨j, hj, rfl⟩ := Option.map_eq_some_iff.1 h
      simpa using ih hj

/-- What a parenthesis opens in front of a balanced text is closed right behind the text. -/
theorem closingIndex?_group {inner : List Char} (h : Balanced inner) :
    closingIndex? start ('(' :: inner ++ [')']) = some (inner.length + 1) := by
  rw [List.cons_append, closingIndex?_cons, if_neg (by simp), start, step_open,
    closingIndex?_append, closingIndex?_balanced h (by decide), behind_balanced h]
  simp [closingIndex?]

/-- A text that is a group as a whole is its inside between parentheses. -/
theorem eq_of_groupInterior? {cs inner : List Char} (h : groupInterior? cs = some inner) :
    cs = '(' :: inner ++ [')'] := by
  unfold groupInterior? at h
  split at h
  · rename_i rest
    split at h
    · rename_i hc
      cases h
      have hlast := getElem?_of_closingIndex? hc
      by_cases hne : rest = []
      · rw [hne] at hlast
        cases hlast
      · have hl : rest.getLast? = some ')' := by
          rw [List.getLast?_eq_getElem?, ← hlast]
          obtain ⟨c, rest, rfl⟩ := List.exists_cons_of_ne_nil hne
          rfl
        rw [List.getLast?_eq_some_getLast hne] at hl
        rw [← Option.some.inj hl, List.cons_append, List.dropLast_append_getLast]
    · cases h
  · cases h

theorem closingIndex?_lt {cur : Cursor} {cs : List Char} {i : Nat}
    (h : closingIndex? cur cs = some i) : i < cs.length :=
  (List.getElem?_eq_some_iff.1 (getElem?_of_closingIndex? h)).1

theorem groupInterior?_eq_some_iff {cs inner : List Char} :
    groupInterior? cs = some inner ↔
      cs = '(' :: inner ++ [')'] ∧ closingIndex? Cursor.start cs = some (inner.length + 1) := by
  constructor
  · intro h
    have he := eq_of_groupInterior? h
    refine ⟨he, ?_⟩
    rw [he] at h ⊢
    obtain ⟨hc, -⟩ := Option.ite_none_right_eq_some.1 h
    simpa using hc
  · rintro ⟨rfl, hc⟩
    show (if closingIndex? Cursor.start ('(' :: inner ++ [')']) = some (inner ++ [')']).length then
      some (inner ++ [')']).dropLast else none) = some inner
    rw [hc, if_pos (by simp), List.dropLast_concat]

/-- A text that begins with another character is no group. -/
theorem groupInterior?_of_ne {c : Char} (h : c ≠ '(') (rest : List Char) :
    groupInterior? (c :: rest) = none := by
  refine Option.eq_none_iff_forall_ne_some.2 fun inner hi => ?_
  exact h (List.cons.inj (eq_of_groupInterior? hi)).1

/-- A balanced text in parentheses is a group, and its inside is that text. -/
theorem groupInterior?_group {inner : List Char} (h : Balanced inner) :
    groupInterior? ('(' :: inner ++ [')']) = some inner :=
  groupInterior?_eq_some_iff.2 ⟨rfl, closingIndex?_group h⟩

/-! ## The search for connectives -/

namespace Connective

theorem letters_of_word {w : Connective} {kw : List Char} (h : lowerText kw = w.word) :
    'İ' ∉ kw ∧ ∀ c ∈ kw, isLatinLetter c = true :=
  letters_of_lowerText h (List.all_eq_true.1 (by cases w <;> decide))

/-- The connective that is found at the head of a text, behind a character and a cursor. -/
def here? (before : Option Char) (cur : Cursor) (c : Char) (cs lower : List Char) :
    Option Connective :=
  if cur.place = .outside ∧ cur.depth = 0 ∧ c ≠ '"' ∧ c ≠ '(' ∧ c ≠ ')'
      ∧ mayFollow before = true then
    at? (c :: cs) lower
  else none

/-- A finding in front of which a number of characters is put. -/
def shift (k : Nat) (p : Nat × Connective) : Nat × Connective := (p.1 + k, p.2)

theorem map_shift_map_shift (j k : Nat) (r : Option (Nat × Connective)) :
    (r.map (shift j)).map (shift k) = r.map (shift (j + k)) := by
  rw [Option.map_map]
  congr 1
  funext p
  simp [shift, Nat.add_assoc]

theorem search?_cons (before : Option Char) (cur : Cursor) (c : Char) (cs lower : List Char) :
    search? before cur (c :: cs) lower =
      match here? before cur c cs lower with
      | some w => some (0, w)
      | none => (search? (some c) (cur.step c) cs lower.tail).map (shift 1) := rfl

theorem search?_cons_of_none {before : Option Char} {cur : Cursor} {c : Char} {cs lower : List Char}
    (h : here? before cur c cs lower = none) :
    search? before cur (c :: cs) lower =
      (search? (some c) (cur.step c) cs lower.tail).map (shift 1) := by
  rw [search?_cons, h]

theorem search?_cons_of_some {before : Option Char} {cur : Cursor} {c : Char} {cs lower : List Char}
    {w : Connective} (h : here? before cur c cs lower = some w) :
    search? before cur (c :: cs) lower = some (0, w) := by
  rw [search?_cons, h]

/-- A connective that is found stands at the first character or is found behind it. -/
theorem search?_cons_eq_some_iff {before : Option Char} {cur : Cursor} {c : Char}
    {cs lower : List Char} {i : Nat} {w : Connective} :
    search? before cur (c :: cs) lower = some (i, w) ↔
      (here? before cur c cs lower = some w ∧ i = 0) ∨
        (here? before cur c cs lower = none ∧
          ∃ j, search? (some c) (cur.step c) cs lower.tail = some (j, w) ∧ i = j + 1) := by
  cases hh : here? before cur c cs lower with
  | some v =>
    rw [search?_cons_of_some hh]
    simp [eq_comm, and_comm]
  | none =>
    rw [search?_cons_of_none hh, Option.map_eq_some_iff]
    constructor
    · rintro ⟨⟨j, v⟩, hj, he⟩
      cases he
      exact .inr ⟨rfl, j, hj, rfl⟩
    · rintro (⟨hv, -⟩ | ⟨-, j, hj, rfl⟩)
      · cases hv
      · exact ⟨(j, w), hj, rfl⟩

/-- A piece of text, and what follows it, at no character of which a connective is found. -/
def Skipped : Option Char → Cursor → List Char → List Char → List Char → Prop
  | _, _, [], _, _ => True
  | before, cur, c :: cs, ds, lower =>
    here? before cur c (cs ++ ds) lower = none ∧ Skipped (some c) (cur.step c) cs ds lower.tail

theorem getLast?_cons_or (c : Char) (cs : List Char) (before : Option Char) :
    (c :: cs).getLast?.or before = cs.getLast?.or (some c) := by
  rw [List.getLast?_cons]
  cases cs.getLast? <;> rfl

/-- Behind a piece that is skipped, the search goes on with the lower case at the same distance. -/
theorem search?_skipped {before : Option Char} {cur : Cursor} {cs ds lower : List Char}
    (h : Skipped before cur cs ds lower) :
    search? before cur (cs ++ ds) lower =
      (search? (cs.getLast?.or before) (cur.behind cs) ds (lower.drop cs.length)).map
        (shift cs.length) := by
  induction cs generalizing before cur lower with
  | nil =>
    show search? before cur ds lower = (search? before cur ds lower).map (shift 0)
    exact Option.map_id'.symm
  | cons c cs ih =>
    rw [List.cons_append, search?_cons_of_none h.1, ih h.2, map_shift_map_shift, behind_cons,
      getLast?_cons_or, List.drop_tail, List.length_cons]

/-- A word behind no blank is no connective, nor is any part of it. -/
theorem skipped_word {before : Option Char} {cs : List Char} (hb : mayFollow before = false)
    (hcs : ∀ c ∈ cs, c ≠ '"' ∧ c ≠ '(' ∧ c ≠ ')' ∧ isBlank c = false) (ds lower : List Char) :
    Skipped before start cs ds lower := by
  induction cs generalizing before lower with
  | nil => trivial
  | cons c cs ih =>
    obtain ⟨⟨hq, ho, hs, hblank⟩, hcs⟩ := List.forall_mem_cons.1 hcs
    refine ⟨if_neg (fun h => ?_), ?_⟩
    · rw [hb] at h
      cases h.2.2.2.2.2
    · rw [start, step_plain hq ho hs]
      exact ih (by simp [mayFollow, hblank, hs]) hcs _

/-- Blanks are no connective. -/
theorem skipped_blanks {cs : List Char} (h : allBlank cs = true) (before : Option Char)
    (ds lower : List Char) : Skipped before start cs ds (cs ++ lower) := by
  induction cs generalizing before with
  | nil => trivial
  | cons c cs ih =>
    obtain ⟨hc, hcs⟩ := List.forall_mem_cons.1 (allBlank_iff.1 h)
    have hat : at? (c :: (cs ++ ds)) (c :: (cs ++ lower)) = none := by
      refine List.find?_eq_none.2 fun w _ hw => ?_
      have ha : 'a' ≠ c := (isBlank_ne hc (by decide)).symm
      have ho : 'o' ≠ c := (isBlank_ne hc (by decide)).symm
      cases w <;> simp [standsAt, word, List.isPrefixOf, ha, ho] at hw
    refine ⟨?_, ?_⟩
    · unfold here?
      rw [List.cons_append, hat, ite_self]
    · rw [start, step_plain (isBlank_ne hc (by decide)) (isBlank_ne hc (by decide))
        (isBlank_ne hc (by decide))]
      exact ih (allBlank_iff.2 hcs) (some c)

/-- A piece of text in which every character stands in a literal or in parentheses, or is a quote or
a parenthesis itself. -/
def Sheltered : Cursor → List Char → Prop
  | _, [] => True
  | cur, c :: cs =>
    (cur.place = .outside → cur.depth = 0 → c = '"' ∨ c = '(' ∨ c = ')') ∧
      Sheltered (cur.step c) cs

theorem here?_of_sheltered {before : Option Char} {cur : Cursor} {c : Char}
    (h : cur.place = .outside → cur.depth = 0 → c = '"' ∨ c = '(' ∨ c = ')')
    (cs lower : List Char) : here? before cur c cs lower = none := by
  refine if_neg ?_
  rintro ⟨hp, hd, hq, ho, hs, -⟩
  rcases h hp hd with h | h | h
  · exact hq h
  · exact ho h
  · exact hs h

theorem Sheltered.append {cur : Cursor} {cs ds : List Char} (hc : Sheltered cur cs)
    (hd : Sheltered (cur.behind cs) ds) : Sheltered cur (cs ++ ds) := by
  induction cs generalizing cur with
  | nil => exact hd
  | cons c cs ih => exact ⟨hc.1, ih hc.2 hd⟩

theorem sheltered_content {b : List Char} (hb : Literal.Content b) (d : Int) :
    Sheltered ⟨.inside, d⟩ b := by
  induction hb with
  | nil => trivial
  | plain hq hs _ ih =>
    refine ⟨by simp, ?_⟩
    rw [step_content hq hs]
    exact ih
  | escaped _ ih => exact ⟨by simp, by simp [step_backslash], ih⟩

theorem sheltered_enclosed {b : List Char} (hb : Literal.Content b) (d : Int) :
    Sheltered ⟨.outside, d⟩ (Literal.enclosed b) := by
  refine ⟨fun _ _ => .inl rfl, (sheltered_content hb d).append ?_⟩
  rw [behind_content hb]
  exact ⟨by simp, trivial⟩

/-- Inside parentheses everything is sheltered. -/
theorem sheltered_balanced {cs : List Char} (h : Balanced cs) {d : Int} (hd : 0 < d) :
    Sheltered ⟨.outside, d⟩ cs := by
  have hne : ¬ d = 0 := by omega
  induction h generalizing d with
  | nil => trivial
  | plain hq ho hs _ ih =>
    refine ⟨fun _ h0 => absurd h0 hne, ?_⟩
    rw [step_plain hq ho hs]
    exact ih hd hne
  | literal hb _ ih =>
    refine (sheltered_enclosed hb d).append ?_
    rw [behind_enclosed hb]
    exact ih hd hne
  | group hi _ ihi ih =>
    refine ⟨fun _ _ => .inr (.inl rfl), (ihi (show 0 < d + 1 by omega) (by omega)).append ?_⟩
    rw [behind_balanced hi]
    refine ⟨fun _ _ => .inr (.inr rfl), ?_⟩
    rw [step_close, Int.add_sub_cancel]
    exact ih hd hne

theorem sheltered_group {inner : List Char} (h : Balanced inner) :
    Sheltered start ('(' :: inner ++ [')']) := by
  refine ⟨fun _ _ => .inr (.inl rfl), (sheltered_balanced h (by decide)).append ?_⟩
  rw [behind_balanced h]
  exact ⟨fun _ _ => .inr (.inr rfl), trivial⟩

/-- A sheltered piece is skipped, whatever stands around it. -/
theorem Sheltered.skipped {cur : Cursor} {cs : List Char} (h : Sheltered cur cs)
    (before : Option Char) (ds lower : List Char) : Skipped before cur cs ds lower := by
  induction cs generalizing before cur lower with
  | nil => trivial
  | cons c cs ih => exact ⟨here?_of_sheltered h.1 _ _, ih h.2 _ _⟩

/-- What is found stands outside literals and parentheses, as a word. -/
theorem search?_eq_some {before : Option Char} {cur : Cursor} {cs lower : List Char} {i : Nat}
    {w : Connective} (h : search? before cur cs lower = some (i, w)) :
    cur.behind (cs.take i) = start ∧ w.standsAt (cs.drop i) (lower.drop i) = true := by
  induction cs generalizing before cur lower i with
  | nil => cases h
  | cons c cs ih =>
    rcases search?_cons_eq_some_iff.1 h with ⟨hh, rfl⟩ | ⟨-, j, hj, rfl⟩
    · obtain ⟨hc, hw⟩ := Option.ite_none_right_eq_some.1 hh
      refine ⟨?_, List.find?_some (p := fun v => standsAt v (c :: cs) lower) hw⟩
      show cur = start
      rw [start, ← hc.1, ← hc.2.1]
    · obtain ⟨hcur, hw⟩ := ih hj
      exact ⟨hcur, by rwa [List.drop_tail] at hw⟩

theorem standsAt_iff {w : Connective} {cs lower : List Char} :
    w.standsAt cs lower = true ↔
      w.word <+: lower ∧ ∃ c, cs[w.word.length]? = some c ∧ (isBlank c = true ∨ c = '(') := by
  unfold standsAt
  cases cs[w.word.length]? <;> simp

theorem not_both {lower : List Char} (ha : Connective.and.word <+: lower)
    (ho : Connective.or.word <+: lower) : False := by
  obtain ⟨t, rfl⟩ := ha
  obtain ⟨s, hs⟩ := ho
  cases hs

theorem at?_eq_some_iff {w : Connective} {cs lower : List Char} :
    at? cs lower = some w ↔ w.standsAt cs lower = true := by
  constructor
  · exact fun h => List.find?_some (p := fun v => standsAt v cs lower) h
  · intro h
    cases w with
    | and => simp [at?, List.find?, h]
    | or =>
      have hand : ¬ Connective.and.standsAt cs lower = true := fun ha =>
        not_both (standsAt_iff.1 ha).1 (standsAt_iff.1 h).1
      simp [at?, List.find?, h, hand]

theorem here?_eq_some_iff {before : Option Char} {cur : Cursor} {c : Char} {cs lower : List Char}
    {w : Connective} :
    here? before cur c cs lower = some w ↔
      (cur.place = .outside ∧ cur.depth = 0 ∧ c ≠ '"' ∧ c ≠ '(' ∧ c ≠ ')' ∧
        mayFollow before = true) ∧ w.standsAt (c :: cs) lower = true := by
  unfold here?
  rw [Option.ite_none_right_eq_some, at?_eq_some_iff]

/-- A word stands where it is spelled, in any case, in front of a blank or a parenthesis. -/
theorem standsAt_spelled {w : Connective} {kw : List Char} (hkw : lowerText kw = w.word) {c : Char}
    (hc : isBlank c = true ∨ c = '(') (rest : List Char) :
    w.standsAt (kw ++ c :: rest) (lowerText (kw ++ c :: rest)) = true := by
  refine standsAt_iff.2 ⟨?_, c, ?_, hc⟩
  · rw [lowerText_append, hkw]
    exact List.prefix_append _ _
  · rw [← hkw, length_lowerText (letters_of_word hkw).1,
      List.getElem?_append_right (Nat.le_refl _), Nat.sub_self]
    rfl

/-- A word that stands at the head of a text stands at the head of every longer text. -/
theorem standsAt_append {w : Connective} {cs lower lower' : List Char} (ds : List Char)
    (hl : lower <+: lower') (h : w.standsAt cs lower = true) :
    w.standsAt (cs ++ ds) lower' = true := by
  obtain ⟨hw, c, hc, hb⟩ := standsAt_iff.1 h
  refine standsAt_iff.2 ⟨hw.trans hl, c, ?_, hb⟩
  obtain ⟨hlt, -⟩ := List.getElem?_eq_some_iff.1 hc
  rw [List.getElem?_append_left hlt, hc]

theorem here?_append {before : Option Char} {cur : Cursor} {c : Char} {cs lower lower' : List Char}
    (ds : List Char) (hl : lower <+: lower') (h : here? before cur c (cs ++ ds) lower' = none) :
    here? before cur c cs lower = none := by
  unfold here? at h ⊢
  split
  · rename_i hc
    rw [if_pos hc] at h
    refine List.find?_eq_none.2 fun w hw hs => ?_
    exact List.find?_eq_none.1 h w hw (standsAt_append ds hl hs)
  · rfl

/-- If nothing is found in a text as far as a piece of it goes, nothing is found in the piece on its
own. -/
theorem search?_eq_none_of_isPrefix {before : Option Char} {cur : Cursor}
    {cs cs' lower lower' : List Char} (hc : cs <+: cs') (hl : lower <+: lower')
    (h : ∀ p, search? before cur cs' lower' = some p → cs.length ≤ p.1) :
    search? before cur cs lower = none := by
  obtain ⟨ds, rfl⟩ := hc
  induction cs generalizing before cur lower lower' with
  | nil => rfl
  | cons c cs ih =>
    rw [List.cons_append] at h
    cases hh : here? before cur c (cs ++ ds) lower' with
    | some w => exact absurd (h (0, w) (search?_cons_of_some hh)) (by simp)
    | none =>
      have htail : lower.tail <+: lower'.tail := by
        obtain ⟨t, rfl⟩ := hl
        cases lower with
        | nil => exact List.nil_prefix
        | cons d lower => exact List.prefix_append lower t
      rw [search?_cons_of_none (here?_append ds hl hh), ih htail, Option.map_none]
      intro p hp
      have := h (shift 1 p) (by rw [search?_cons_of_none hh, hp]; rfl)
      simpa [shift] using this

/-- What stands in front of the first connective holds none. -/
theorem first?_trim_take {cs : List Char} (hcs : Trimmed cs) {i : Nat} {w : Connective}
    (h : first? cs = some (i, w)) : first? (trim (cs.take i)) = none := by
  have hpre := trim_take_isPrefix hcs i
  have hcs' : trim (cs.take i) <+: cs := hpre.trans (List.take_prefix i cs)
  refine search?_eq_none_of_isPrefix hcs' (isPrefix_lowerText hcs') fun p hp => ?_
  cases hp.symm.trans h
  exact Nat.le_trans hpre.length_le (List.length_take_le i cs)

end Connective

end ScimBridge
