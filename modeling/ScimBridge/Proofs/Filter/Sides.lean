import ScimBridge.Proofs.Filter.Grammar

/-!
# Sides of a connective

A text can stand on the left of a connective if the search for connectives passes over it, whatever
follows (`Passed`). Blanks, words and groups are passed over, and so are such pieces in a row.

1. `first?_spaced`: between two sides the connective is found where it stands.
2. `exists_trim_spaced`: blanks around the sides are blanks around the connective and the whole.
3. `reads_spaced`, `nesting_spaced`: what the two sides read as together, and how deep they are
   nested.
-/

namespace ScimBridge

theorem balanced_of_letters {cs : List Char} (h : ∀ c ∈ cs, isLatinLetter c = true) :
    Balanced cs :=
  balanced_of_plain fun c hc =>
    have hp := plain_of_letters h c hc
    ⟨hp.1, hp.2.1, hp.2.2.1⟩

/-- A text in parentheses. -/
def bracketed (cs : List Char) : List Char := '(' :: cs ++ [')']

theorem getLast?_bracketed (cs : List Char) : (bracketed cs).getLast? = some ')' :=
  List.getLast?_concat

theorem balanced_bracketed {cs : List Char} (h : Balanced cs) : Balanced (bracketed cs) :=
  .group h .nil

namespace Connective

/-! ## What the search passes over -/

theorem Skipped.append {before : Option Char} {cur : Cursor} {cs ds es lower : List Char}
    (hc : Skipped before cur cs (ds ++ es) lower)
    (hd : Skipped (cs.getLast?.or before) (cur.behind cs) ds es (lower.drop cs.length)) :
    Skipped before cur (cs ++ ds) es lower := by
  induction cs generalizing before cur lower with
  | nil => exact hd
  | cons c cs ih =>
    rw [getLast?_cons_or] at hd
    refine ⟨?_, ih hc.2 (by rwa [List.drop_tail])⟩
    show here? before cur c (cs ++ ds ++ es) lower = none
    rw [List.append_assoc]
    exact hc.1

/-- A text over which the search for connectives passes behind a character, whatever follows the
text. -/
structure Passed (before : Option Char) (cs : List Char) : Prop where
  plain : 'İ' ∉ cs
  balanced : Balanced cs
  skipped : ∀ ds, Skipped before Cursor.start cs ds (lowerText (cs ++ ds))

namespace Passed

variable {before : Option Char} {cs ds : List Char}

theorem append (hc : Passed before cs) (hd : Passed (cs.getLast?.or before) ds) :
    Passed before (cs ++ ds) := by
  refine ⟨?_, hc.balanced.append hd.balanced, fun es => ?_⟩
  · rw [List.mem_append, not_or]
    exact ⟨hc.plain, hd.plain⟩
  · rw [List.append_assoc]
    refine (hc.skipped (ds ++ es)).append ?_
    rw [drop_lowerText hc.plain, Cursor.start, Cursor.behind_balanced hc.balanced]
    exact hd.skipped es

/-- Behind a text that is passed over the search goes on. -/
theorem search? (h : Passed before cs) (ds : List Char) :
    Connective.search? before Cursor.start (cs ++ ds) (lowerText (cs ++ ds)) =
      (Connective.search? (cs.getLast?.or before) Cursor.start ds (lowerText ds)).map
        (shift cs.length) := by
  rw [search?_skipped (h.skipped ds), drop_lowerText h.plain, Cursor.start,
    Cursor.behind_balanced h.balanced]

theorem first?_eq_none (h : Passed none cs) : first? cs = none := by
  have hs := h.search? []
  rwa [List.append_nil] at hs

end Passed

theorem passed_blanks (before : Option Char) {cs : List Char} (h : allBlank cs = true) :
    Passed before cs := by
  refine ⟨not_mem_of_allBlank (by decide) h, balanced_of_allBlank h, fun ds => ?_⟩
  rw [lowerText_append, lowerText_blanks h]
  exact skipped_blanks h before ds (lowerText ds)

/-- Whether a character neither ends a word nor begins a literal or a group. -/
def isPlain (c : Char) : Bool := c != '"' && c != '(' && c != ')' && !isBlank c

theorem isPlain_iff {c : Char} :
    isPlain c = true ↔ c ≠ '"' ∧ c ≠ '(' ∧ c ≠ ')' ∧ isBlank c = false := by
  simp [isPlain, and_assoc]

theorem balanced_of_isPlain {cs : List Char} (h : ∀ c ∈ cs, isPlain c = true) : Balanced cs :=
  balanced_of_plain fun c hc =>
    have hp := isPlain_iff.1 (h c hc)
    ⟨hp.1, hp.2.1, hp.2.2.1⟩

/-- A word behind no blank is passed over, whatever its letters. -/
theorem passed_word {before : Option Char} (hb : mayFollow before = false) {cs : List Char}
    (hI : 'İ' ∉ cs) (hcs : ∀ c ∈ cs, isPlain c = true) : Passed before cs :=
  ⟨hI, balanced_of_isPlain hcs, fun _ => skipped_word hb (fun c hc => isPlain_iff.1 (hcs c hc)) _ _⟩

theorem passed_letters {before : Option Char} (hb : mayFollow before = false) {cs : List Char}
    (hI : 'İ' ∉ cs) (hcs : ∀ c ∈ cs, isLatinLetter c = true) : Passed before cs :=
  passed_word hb hI fun c hc => isPlain_iff.2 (plain_of_letters hcs c hc)

theorem passed_bracketed (before : Option Char) {cs : List Char} (h : Balanced cs)
    (hI : 'İ' ∉ cs) : Passed before (bracketed cs) :=
  ⟨by simp [bracketed, hI], balanced_bracketed h,
    fun ds => (sheltered_group h).skipped before ds _⟩

/-! ## Two sides around a connective -/

/-- Two sides around a word, and what stands between the word and each of them. -/
def spaced (cs gap kw gap' ds : List Char) : List Char := cs ++ (gap ++ (kw ++ (gap' ++ ds)))

/-- Blanks and a word that stands as a connective between two sides: where there are no blanks, a
parenthesis ends the left side or begins the right one. -/
structure Between (w : Connective) (cs gap kw gap' ds : List Char) : Prop where
  blanks : allBlank gap = true
  spelled : lowerText kw = w.word
  blanks' : allBlank gap' = true
  before : mayFollow (cs ++ gap).getLast? = true
  after : ∃ c rest, gap' ++ ds = c :: rest ∧ (isBlank c = true ∨ c = '(')

theorem Between.of_blanks {w : Connective} {cs gap kw gap' ds : List Char}
    (hgap : allBlank gap = true) (hkw : lowerText kw = w.word) (hgap' : allBlank gap' = true)
    (hcs : gap = [] → cs.getLast? = some ')') (hds : gap' = [] → ds.head? = some '(') :
    Between w cs gap kw gap' ds := by
  refine ⟨hgap, hkw, hgap', ?_, ?_⟩
  · by_cases hne : gap = []
    · rw [hne, List.append_nil, hcs hne]
      rfl
    · rw [List.getLast?_append_of_ne_nil _ hne, List.getLast?_eq_some_getLast hne]
      simp [mayFollow, allBlank_iff.1 hgap _ (List.getLast_mem hne)]
  · cases gap' with
    | nil =>
      obtain ⟨rest, rfl⟩ := List.head?_eq_some_iff.1 (hds rfl)
      exact ⟨'(', rest, rfl, .inr rfl⟩
    | cons c gap' => exact ⟨c, gap' ++ ds, rfl, .inl (allBlank_iff.1 hgap' c List.mem_cons_self)⟩

theorem trimmed_spaced {cs ds : List Char} (hc : Trimmed cs) (hd : Trimmed ds) (hcs : cs ≠ [])
    (hds : ds ≠ []) (gap kw gap' : List Char) : Trimmed (spaced cs gap kw gap' ds) := by
  constructor
  · intro c hhead
    rw [spaced, List.head?_append_of_ne_nil _ hcs] at hhead
    exact hc.1 c hhead
  · intro c hlast
    rw [spaced, ← List.append_assoc, ← List.append_assoc, ← List.append_assoc,
      List.getLast?_append_of_ne_nil _ hds] at hlast
    exact hd.2 c hlast

section Between

variable {w : Connective} {cs ds gap kw gap' : List Char} (h : Between w cs gap kw gap' ds)

include h

theorem balanced_spaced (hc : Balanced cs) (hd : Balanced ds) :
    Balanced (spaced cs gap kw gap' ds) :=
  hc.append ((balanced_of_allBlank h.blanks).append
    ((balanced_of_letters (letters_of_word h.spelled).2).append
      ((balanced_of_allBlank h.blanks').append hd)))

/-- Behind a side that is passed over, the connective is found where it stands. -/
theorem first?_spaced (hc : Passed none cs) :
    first? (spaced cs gap kw gap' ds) = some (cs.length + gap.length, w) := by
  obtain ⟨c, rest, hafter, hc'⟩ := h.after
  have hbefore : mayFollow (gap.getLast?.or (cs.getLast?.or none)) = true := by
    rw [Option.or_none, ← List.getLast?_append]
    exact h.before
  have hfound : Connective.search? (gap.getLast?.or (cs.getLast?.or none)) Cursor.start
      (kw ++ (gap' ++ ds)) (lowerText (kw ++ (gap' ++ ds))) = some (0, w) := by
    rw [hafter]
    have hstands := standsAt_spelled h.spelled hc' rest
    have hplain := plain_of_letters (letters_of_word h.spelled).2
    cases kw with
    | nil => cases w <;> cases h.spelled
    | cons k kw =>
      obtain ⟨hq, ho, hs, -⟩ := hplain k List.mem_cons_self
      exact search?_cons_of_some (here?_eq_some_iff.2 ⟨⟨rfl, rfl, hq, ho, hs, hbefore⟩, hstands⟩)
  unfold first? spaced
  rw [hc.search?, (passed_blanks _ h.blanks).search?, hfound]
  simp [shift, Nat.add_comm]

/-- Without the blanks around it, the whole is the sides without the blanks around them and the
same word between them. -/
theorem exists_trim_spaced (hc : trim cs ≠ []) (hd : trim ds ≠ []) :
    ∃ before after, Between w (trim cs) before kw after (trim ds) ∧
      trim (spaced cs gap kw gap' ds) = spaced (trim cs) before kw after (trim ds) := by
  obtain ⟨u, v, hu, hv, hcs⟩ := exists_blanks_trim cs
  obtain ⟨u', v', hu', hv', hds⟩ := exists_blanks_trim ds
  have hbefore : (cs ++ gap).getLast? = (trim cs ++ (v ++ gap)).getLast? := by
    conv_lhs => rw [hcs, List.append_assoc, List.append_assoc]
    exact List.getLast?_append_of_ne_nil _ (by simp [hc])
  have hafter : ∃ c rest, gap' ++ u' ++ trim ds = c :: rest ∧ (isBlank c = true ∨ c = '(') := by
    obtain ⟨c, rest, he, hc'⟩ := h.after
    obtain ⟨d, tail, hdt⟩ := List.exists_cons_of_ne_nil
      (List.append_ne_nil_of_right_ne_nil (gap' ++ u') hd)
    rw [hds, ← List.append_assoc, ← List.append_assoc, hdt] at he
    exact ⟨d, tail, hdt, (List.cons.inj he).1 ▸ hc'⟩
  have hsplit : spaced cs gap kw gap' ds =
      u ++ spaced (trim cs) (v ++ gap) kw (gap' ++ u') (trim ds) ++ v' := by
    conv_lhs => rw [hcs, hds]
    simp [spaced]
  refine ⟨v ++ gap, gap' ++ u', ⟨allBlank_append.2 ⟨hv, h.blanks⟩, h.spelled,
    allBlank_append.2 ⟨h.blanks', hu'⟩, hbefore ▸ h.before, hafter⟩, ?_⟩
  rw [hsplit]
  exact trim_eq_of_trimmed hu (trimmed_spaced (trimmed_trim cs) (trimmed_trim ds) hc hd _ _ _) hv'

end Between

end Connective

namespace Filter

open Connective (Between Passed spaced)

/-! ## What two sides read as -/

section Pad

variable {u v : List Char} (hu : allBlank u = true) (hv : allBlank v = true) (cs : List Char)

include hu hv

theorem reads_pad {f : Filter} : Reads (u ++ cs ++ v) f ↔ Reads cs f :=
  ⟨fun h => h.of_trim_eq (trim_pad hu hv cs), fun h => h.of_trim_eq (trim_pad hu hv cs).symm⟩

theorem nesting_pad : nesting (u ++ cs ++ v) = nesting cs := nesting_congr (trim_pad hu hv cs)

end Pad

theorem Reads.trim_ne_nil {cs : List Char} {f : Filter} (h : Reads cs f) : trim cs ≠ [] :=
  (reads_trim_iff.2 h).ne_nil

section Sides

variable {w : Connective} {l gap kw gap' r : List Char} {f g : Filter}

theorem cut_spaced (hkw : lowerText kw = w.word) (l gap gap' r : List Char) :
    (spaced l gap kw gap' r).take (l.length + gap.length) = l ++ gap ∧
      (spaced l gap kw gap' r).drop (l.length + gap.length + w.word.length) = gap' ++ r := by
  have hlength : w.word.length = kw.length := by
    rw [← hkw, length_lowerText (Connective.letters_of_word hkw).1]
  have he : spaced l gap kw gap' r = (l ++ gap) ++ (kw ++ (gap' ++ r)) := by simp [spaced]
  constructor
  · rw [he, List.take_left' (by simp)]
  · rw [he, ← List.append_assoc, List.drop_left' (by simp [hlength, Nat.add_assoc])]

variable (h : Between w l gap kw gap' r) (hl : Passed none (trim l))

include h hl

/-- Two sides read as the connective joins what they read as. -/
theorem reads_spaced (hf : Reads l f) (hg : Reads r g) :
    Reads (spaced l gap kw gap' r) (w.join f g) := by
  obtain ⟨before, after, hb, ht⟩ := Connective.exists_trim_spaced h hf.trim_ne_nil hg.trim_ne_nil
  have hc := Connective.first?_spaced hb hl
  obtain ⟨htake, hdrop⟩ := cut_spaced h.spelled (trim l) before after (trim r)
  refine (reads_chain_iff (ht.symm ▸ hc)).2 ⟨f, g, rfl, ?_, ?_⟩
  · rw [ht, htake]
    exact (reads_pad (u := []) rfl hb.blanks (trim l)).2 (reads_trim_iff.2 hf)
  · rw [ht, hdrop, ← List.append_nil (after ++ trim r)]
    exact (reads_pad (v := []) hb.blanks' rfl (trim r)).2 (reads_trim_iff.2 hg)

theorem nesting_spaced (hne : trim l ≠ []) (hne' : trim r ≠ []) :
    nesting (spaced l gap kw gap' r) = max (nesting l) (nesting r) := by
  obtain ⟨before, after, hb, ht⟩ := Connective.exists_trim_spaced h hne hne'
  have hc := Connective.first?_spaced hb hl
  obtain ⟨htake, hdrop⟩ := cut_spaced h.spelled (trim l) before after (trim r)
  rw [nesting_chain (ht.symm ▸ hc), ht, htake, hdrop, ← List.append_nil (after ++ trim r)]
  congr 1
  · exact (nesting_pad (u := []) rfl hb.blanks (trim l)).trans (nesting_congr (trim_trim l))
  · exact (nesting_pad (v := []) hb.blanks' rfl (trim r)).trans (nesting_congr (trim_trim r))

end Sides

end Filter

end ScimBridge
