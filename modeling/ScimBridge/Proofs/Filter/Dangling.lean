import ScimBridge.Proofs.Filter.Longer
import ScimBridge.Proofs.Filter.Replacement

/-!
# A connective at the end

A connective behind which nothing stands is not seen by the search. A filter with one is refused
unless its last comparison has a bare value and stands outside parentheses: this value takes in
whatever stands behind it, the blanks and the word included (`dangling_connective`).

1. `read_append`: of the comparisons only those with a bare value go on behind their end.
2. `Reads.swallow`, `endsBare_of_reads`: by induction along the last terms, what reads with blanks
   and a word behind it.
3. `first?_append_eq_none_iff`: without dotted capitals, a connective comes up newly iff the text
   ends in one.
-/

namespace ScimBridge

/-! ## What is behind the end -/

theorem Connective.ne_nil_of_word {w : Connective} {kw : List Char} (h : lowerText kw = w.word) :
    kw ≠ [] := by
  rintro rfl
  cases w <;> cases h

/-- Blanks and a connective with nothing behind it. -/
def LooseEnd (tail : List Char) : Prop :=
  ∃ (w : Connective) (gap kw : List Char),
    tail = gap ++ kw ∧ Comparison.IsGap gap ∧ lowerText kw = w.word

section Trimmed

variable {cs ds tail : List Char}

theorem trimmed_of_letters (h : ∀ c ∈ cs, isLatinLetter c = true) : Trimmed cs :=
  ⟨fun c hc => (plain_of_letters h c (List.mem_of_head? hc)).2.2.2,
    fun c hc => (plain_of_letters h c (List.mem_of_getLast? hc)).2.2.2⟩

/-- A text without blanks at its end is its trimmed form behind blanks. -/
theorem exists_blanks_of_getLast? (cs : List Char)
    (h : ∀ c, cs.getLast? = some c → isBlank c = false) :
    ∃ u, allBlank u = true ∧ cs = u ++ trim cs := by
  obtain ⟨u, v, hu, hv, he⟩ := exists_blanks_trim cs
  refine ⟨u, hu, ?_⟩
  rcases List.eq_nil_or_concat v with rfl | ⟨front, c, rfl⟩
  · rwa [List.append_nil] at he
  · rw [List.concat_eq_append] at he hv
    have hlast : cs.getLast? = some c := by
      rw [he, ← List.append_assoc, List.getLast?_concat]
    have hblank := allBlank_iff.1 hv c (by simp)
    rw [h c hlast] at hblank
    cases hblank

namespace LooseEnd

variable (ht : LooseEnd tail)

include ht

theorem plain : 'İ' ∉ tail := by
  obtain ⟨w, gap, kw, rfl, hgap, hkw⟩ := ht
  rw [List.mem_append, not_or]
  exact ⟨not_mem_of_allBlank (by decide) hgap.2, (Connective.letters_of_word hkw).1⟩

theorem getLast : ∃ c, tail.getLast? = some c ∧ isLatinLetter c = true := by
  obtain ⟨w, gap, kw, rfl, -, hkw⟩ := ht
  have hne := Connective.ne_nil_of_word hkw
  refine ⟨kw.getLast hne, ?_, (Connective.letters_of_word hkw).2 _ (List.getLast_mem hne)⟩
  rw [List.getLast?_append_of_ne_nil _ hne, List.getLast?_eq_some_getLast hne]

theorem ne_nil : tail ≠ [] := by
  obtain ⟨c, hc, -⟩ := ht.getLast
  rintro rfl
  cases hc

/-- Behind a text that does not begin with a blank, the whole is trimmed. -/
theorem trim_append (hcs : Trimmed cs) (hne : cs ≠ []) : trim (cs ++ tail) = cs ++ tail := by
  obtain ⟨d, hd, hletter⟩ := ht.getLast
  refine trim_of_trimmed ⟨fun c hc => ?_, fun c hc => ?_⟩
  · rw [List.head?_append_of_ne_nil _ hne] at hc
    exact hcs.1 c hc
  · rw [List.getLast?_append_of_ne_nil _ ht.ne_nil, hd] at hc
    cases hc
    cases hb : isBlank d with
    | false => rfl
    | true =>
      rw [isLatinLetter_of_isBlank hb] at hletter
      cases hletter

/-- What ends in a word is no group. -/
theorem groupInterior?_append (cs : List Char) : groupInterior? (cs ++ tail) = none := by
  obtain ⟨c, hc, hletter⟩ := ht.getLast
  refine Option.eq_none_iff_forall_ne_some.2 fun inner hi => ?_
  have hlast := congrArg List.getLast? (eq_of_groupInterior? hi)
  rw [List.getLast?_append_of_ne_nil _ ht.ne_nil, hc, List.getLast?_concat] at hlast
  cases hlast
  cases hletter

end LooseEnd

end Trimmed

/-! ## Comparisons in front of it -/

namespace Comparison

theorem Parts.Spelled.unique {p q : Parts} {cs : List Char} (hp : p.Spelled cs)
    (hq : q.Spelled cs) : p = q :=
  Option.some.inj ((Parts.of?_eq_some_iff.2 hp).symm.trans (Parts.of?_eq_some_iff.2 hq))

/-- No text shorter than four characters is a comparison. -/
theorem four_le_length_of_read {s : List Char} {f : Filter} (h : read s = .ok f) :
    4 ≤ s.length := by
  obtain ⟨p, hp, hf⟩ := read_eq_ok_iff.1 h
  have hoperator : 2 ≤ p.operator.length := by
    have hknown : lowered (String.ofList p.operator) ∈ "pr" :: Filter.comparisonOperators := by
      rcases Parts.filter_eq_ok_iff.1 hf with ⟨hpr, -⟩ | ⟨hop, -⟩
      · exact hpr ▸ List.mem_cons_self
      · exact List.mem_cons_of_mem _ hop
    have hlong : ∀ op ∈ "pr" :: Filter.comparisonOperators, op.toList.length = 2 := by decide
    have hlength := hlong _ hknown
    have hI : 'İ' ∉ p.operator := by
      intro hI
      cases hp with
      | bare _ _ hop | valued _ _ hop => exact absurd (hop.2 _ hI) (by decide)
    rw [lowered, String.toList_ofList, String.toList_ofList, length_lowerText hI] at hlength
    exact Nat.le_of_eq hlength.symm
  have hpos {cs : List Char} (h : cs ≠ []) : 0 < cs.length := List.length_pos_iff.2 h
  cases hp with
  | bare hpath hgap hop | valued hpath hgap hop =>
    obtain ⟨c, rest, rfl, -⟩ := hpath
    have := hpos hgap.1
    simp only [List.length_append, List.length_cons] at hoperator ⊢
    omega

variable {s tail : List Char} (ht : LooseEnd tail)

/-- A comparison with a bare value takes in what is behind it. -/
theorem read_append {path op value : String} (h : read s = .ok (.compare path op value))
    (hbare : value.toList.head? ≠ some '"') :
    read (s ++ tail) = .ok (.compare path op (value ++ String.ofList tail)) := by
  obtain ⟨p, hp, hf⟩ := read_eq_ok_iff.1 h
  rcases Parts.filter_eq_ok_iff.1 hf with ⟨-, -, hcompare⟩ | ⟨hop, hne, hq, hcompare⟩
  · cases hcompare
  · cases hcompare
    cases hp with
    | bare => exact absurd rfl hne
    | @valued path gap op gap' value hpath hgap hoperator hgap' _ hhead =>
      rw [String.toList_ofList] at hbare
      have hhead' : (value ++ tail).head? = value.head? := List.head?_append_of_ne_nil _ hne
      refine read_eq_ok_iff.2 ⟨⟨path, op, value ++ tail⟩, ?_,
        Parts.filter_eq_ok_iff.2 (.inr ⟨hop, ?_, fun hquote => ?_, ?_⟩)⟩
      · rw [List.append_assoc]
        exact .valued hpath hgap hoperator hgap' (List.append_ne_nil_of_left_ne_nil hne tail)
          (by rwa [hhead'])
      · exact List.append_ne_nil_of_left_ne_nil hne tail
      · exact absurd (hhead'.symm.trans hquote) hbare
      · rw [String.ofList_append]

include ht

/-- No other comparison goes on behind its end: a presence test takes no value, and a string is
closed. -/
theorem bare_of_read_append (hs : Trimmed s) {f m : Filter} (h : read s = .ok f)
    (hm : read (s ++ tail) = .ok m) :
    ∃ path op value, f = .compare path op value ∧ value.toList.head? ≠ some '"' := by
  have hwf := wellFormed_of_read hs h
  obtain ⟨p, hp, hf⟩ := read_eq_ok_iff.1 h
  obtain ⟨q, hq, hm⟩ := read_eq_ok_iff.1 hm
  cases hp with
  | @bare path gap op hpath hgap hop =>
    obtain ⟨w, gap', kw, rfl, hgap', hkw⟩ := ht
    have hletters := (Connective.letters_of_word hkw).2
    have hne := Connective.ne_nil_of_word hkw
    have hspelled : Parts.Spelled ⟨path, op, kw⟩ (path ++ gap ++ op ++ (gap' ++ kw)) := by
      rw [← List.append_assoc]
      exact .valued hpath hgap hop hgap' hne (trimmed_of_letters hletters).1
    cases hspelled.unique hq
    rcases Parts.filter_eq_ok_iff.1 hf with ⟨hpr, -, -⟩ | ⟨-, hvalue, -⟩
    · rcases Parts.filter_eq_ok_iff.1 hm with ⟨-, hvalue, -⟩ | ⟨hoperator, -⟩
      · exact absurd hvalue hne
      · change lowered (String.ofList op) = _ at hpr
        change lowered (String.ofList op) ∈ _ at hoperator
        rw [hpr] at hoperator
        exact absurd hoperator (by decide)
    · exact absurd rfl hvalue
  | @valued path gap op gap' value hpath hgap hop hgap' hne hhead =>
    rcases Parts.filter_eq_ok_iff.1 hf with ⟨-, hvalue, -⟩ | ⟨-, -, hquoted, rfl⟩
    · exact absurd hvalue hne
    refine ⟨_, _, _, rfl, fun hquote => ?_⟩
    rw [String.toList_ofList] at hquote
    have hspelled : Parts.Spelled ⟨path, op, value ++ tail⟩
        (path ++ gap ++ op ++ gap' ++ value ++ tail) := by
      rw [List.append_assoc _ value]
      refine .valued hpath hgap hop hgap' (List.append_ne_nil_of_left_ne_nil hne tail) ?_
      rwa [List.head?_append_of_ne_nil _ hne]
    cases hspelled.unique hq
    have hlonger : Literal.isString (value ++ tail) = true := by
      rcases Parts.filter_eq_ok_iff.1 hm with ⟨-, hvalue, -⟩ | ⟨-, -, hstring, -⟩
      · exact absurd (List.append_eq_nil_iff.1 hvalue).1 hne
      · exact hstring (by rwa [List.head?_append_of_ne_nil _ hne])
    -- the value is one closed string, and so would be the longer one
    have htrimmed : Trimmed value := by
      have := hwf.2.2.2.1
      rwa [String.toList_ofList] at this
    obtain ⟨b, hb, rfl | rfl⟩ := Literal.isString_iff.1 (hquoted hquote)
    · exact ht.ne_nil (post_eq_nil_of_isString hb
        (trimmed_of_trim_eq (ht.trim_append htrimmed (List.cons_ne_nil _ _))) hlonger)
    · exact Literal.ne_append_newline htrimmed _ rfl

end Comparison

namespace Filter

/-! ## The last term -/

/-- No text shorter than four characters reads as a filter. -/
theorem Reads.four_le_length {cs : List Char} {f : Filter} (h : Reads cs f) : 4 ≤ cs.length := by
  induction h with
  | @chain cs i w _ _ _ _ _ ih _ =>
    have htake := List.length_take_le' i (trim cs)
    have htrim := length_trim_le cs
    omega
  | @group cs inner _ _ hg _ ih =>
    have hlt := length_groupInterior_lt hg
    have htrim := length_trim_le cs
    omega
  | @negation cs rest _ _ _ hn _ ih =>
    have hlt := length_negated?_lt hn
    have htrim := length_trim_le cs
    omega
  | @comparison cs _ _ _ _ hr =>
    exact (Comparison.four_le_length_of_read hr).trans (length_trim_le cs)

/-- The last term of a text, if it is a comparison with a bare value outside parentheses, or one
behind a `not`. -/
inductive EndsBare : List Char → List Char → Prop
  | chain {cs t : List Char} {i : Nat} {w : Connective} :
      Connective.first? (trim cs) = some (i, w) →
      EndsBare ((trim cs).drop (i + w.word.length)) t → EndsBare cs t
  | negation {cs rest t : List Char} :
      Connective.first? (trim cs) = none → groupInterior? (trim cs) = none →
      negated? (trim cs) = some rest → EndsBare rest t → EndsBare cs (trim cs)
  | comparison {cs : List Char} {path op value : String} :
      Connective.first? (trim cs) = none → groupInterior? (trim cs) = none →
      negated? (trim cs) = none → Comparison.read (trim cs) = .ok (.compare path op value) →
      value.toList.head? ≠ some '"' → EndsBare cs (trim cs)

/-- A text without connectives is its own last term. -/
theorem EndsBare.eq_trim {cs t : List Char} (h : EndsBare cs t)
    (hc : Connective.first? (trim cs) = none) : t = trim cs := by
  cases h with
  | chain hc' => cases hc.symm.trans hc'
  | negation | comparison => rfl

/-- The filter with a text behind its last value. -/
def extendLast (s : String) : Filter → Filter
  | .present path => .present path
  | .compare path op value => .compare path op (value ++ s)
  | .not inner => .not (inner.extendLast s)
  | .and l r => .and l (r.extendLast s)
  | .or l r => .or l (r.extendLast s)

theorem extendLast_join (s : String) (w : Connective) (l r : Filter) :
    (w.join l r).extendLast s = w.join l (r.extendLast s) := by
  cases w <;> rfl

/-! ## What is read behind it -/

theorem negated?_append {cs rest : List Char} (ds : List Char) (h : negated? cs = some rest)
    (hne : rest ≠ []) : negated? (cs ++ ds) = some (rest ++ ds) := by
  obtain ⟨kw, gap, rfl, hkw, hgap, hhead, hopen⟩ := negated?_eq_some_iff.1 h
  refine negated?_eq_some_iff.2 ⟨kw, gap, by simp only [List.append_assoc], hkw, hgap, ?_, ?_⟩
  · rwa [List.head?_append_of_ne_nil _ hne]
  · rwa [List.head?_append_of_ne_nil _ hne]

/-- Whether a text begins with a `not` is settled by its first four characters. -/
theorem negated?_append_eq_none {cs : List Char} (ds : List Char) (hlen : 4 ≤ cs.length)
    (h : negated? cs = none) : negated? (cs ++ ds) = none := by
  obtain ⟨n, o, t, c, cs, rfl⟩ : ∃ n o t c rest, cs = n :: o :: t :: c :: rest := by
    match cs, hlen with
    | n :: o :: t :: c :: rest, _ => exact ⟨n, o, t, c, rest, rfl⟩
  by_cases hkw : lowerText [n, o, t] = ['n', 'o', 't']
  · by_cases hopen : c = '('
    · subst hopen
      simp [negated?, hkw] at h
    · simpa [negated?, hkw, hopen, Comparison.afterBlanks?] using h
  · simp [negated?, hkw]

theorem ne_nil_of_negated {cs rest : List Char} (hn : negated? cs = some rest) : cs ≠ [] := by
  rintro rfl
  cases hn

/-- The search in what is negated, on its own, finds no more than the search behind the `not`. -/
theorem first?_eq_none_of_negated {cs rest : List Char} (ds : List Char)
    (hn : negated? cs = some rest) (h : Connective.first? (cs ++ ds) = none) :
    Connective.first? (rest ++ ds) = none := by
  obtain ⟨kw, gap, rfl, hkw, hgap, -⟩ := negated?_eq_some_iff.1 hn
  obtain ⟨before, k, hsearch⟩ := Connective.exists_first?_not hkw hgap
  rw [List.append_assoc, List.append_assoc, hsearch, Option.map_eq_none_iff] at h
  exact Connective.search?_none_of_search? h

/-- What a `not` stands in front of has no blanks at its ends. -/
theorem trim_of_negated {cs rest : List Char} (hn : negated? (trim cs) = some rest)
    (hne : rest ≠ []) : trim rest = rest := by
  obtain ⟨kw, gap, he, -, -, hhead, -⟩ := negated?_eq_some_iff.1 hn
  refine trim_of_trimmed ⟨hhead, fun c h => (trimmed_trim cs).2 c ?_⟩
  rw [he, ← List.append_assoc, List.getLast?_append_of_ne_nil _ hne, h]

section Behind

variable {tail : List Char} (ht : LooseEnd tail)

include ht

/-- Of what is behind the end, no part is a filter. -/
theorem not_reads_drop (k : Nat) (f : Filter) : ¬ Reads (tail.drop k) f := by
  obtain ⟨w, gap, kw, rfl, hgap, hkw⟩ := ht
  have hblank : allBlank (gap.drop k) = true :=
    allBlank_iff.2 fun c hc => allBlank_iff.1 hgap.2 c (List.mem_of_mem_drop hc)
  rw [List.drop_append, ← List.append_nil (_ ++ _), reads_pad (v := []) hblank rfl]
  intro h
  have hlong := h.four_le_length
  have hword := (Connective.word_length w).2
  rw [← hkw, length_lowerText (Connective.letters_of_word hkw).1] at hword
  rw [List.length_drop] at hlong
  omega

variable {cs : List Char} {f m : Filter}

/-- Behind a connective that comes up newly nothing stands that could be read. -/
theorem first?_append_of_reads (hcs : Trimmed cs) (hne : cs ≠ [])
    (hc : Connective.first? cs = none) (hm : Reads (cs ++ tail) m) :
    Connective.first? (cs ++ tail) = none := by
  refine Option.eq_none_iff_forall_ne_some.2 fun ⟨i, w⟩ h => ?_
  have hle := Connective.le_of_first?_append hc h
  rw [← ht.trim_append hcs hne] at h
  obtain ⟨-, r, -, -, hr⟩ := (reads_chain_iff h).1 hm
  rw [ht.trim_append hcs hne, List.drop_append, List.drop_eq_nil_of_le hle, List.nil_append] at hr
  exact not_reads_drop ht _ r hr

section Chain

variable {i : Nat} {w : Connective} (hc : Connective.first? (trim cs) = some (i, w))

include hc

/-- In a chain, what is behind the end belongs to the right side. -/
theorem exists_chain_append :
    trim (trim cs ++ tail) = trim cs ++ tail ∧
      Connective.first? (trim cs ++ tail) = some (i, w) ∧
      (trim cs ++ tail).take i = (trim cs).take i ∧
      ∃ u, allBlank u = true ∧ (trim cs ++ tail).drop (i + w.word.length) =
        u ++ (trim ((trim cs).drop (i + w.word.length)) ++ tail) := by
  have hi := Connective.first?_lt hc
  have hend := Connective.search?_end_lt hc
  have hne : trim cs ≠ [] := List.ne_nil_of_length_pos (by omega)
  obtain ⟨u, hu, he⟩ := exists_blanks_of_getLast?
    ((trim cs).drop (i + w.word.length)) fun c h => (trimmed_trim cs).2 c (by
      rw [List.getLast?_drop, if_neg (by omega)] at h
      exact h)
  refine ⟨ht.trim_append (trimmed_trim cs) hne, Connective.first?_append tail hc,
    List.take_append_of_le_length (Nat.le_of_lt hi), u, hu, ?_⟩
  rw [List.drop_append_of_le_length (Nat.le_of_lt hend), ← List.append_assoc, ← he]

theorem reads_chain_append_iff :
    Reads (trim cs ++ tail) m ↔ ∃ l r, m = w.join l r ∧ Reads ((trim cs).take i) l ∧
      Reads (trim ((trim cs).drop (i + w.word.length)) ++ tail) r := by
  obtain ⟨htrim, hfirst, htake, u, hu, hdrop⟩ := exists_chain_append ht hc
  rw [← htrim] at hfirst
  rw [reads_chain_iff hfirst, htrim, htake, hdrop]
  simp only [← reads_pad (v := []) hu rfl (_ ++ tail), List.append_nil]

theorem nesting_chain_append : nesting (trim cs ++ tail) =
    max (nesting ((trim cs).take i))
      (nesting (trim ((trim cs).drop (i + w.word.length)) ++ tail)) := by
  obtain ⟨htrim, hfirst, htake, u, hu, hdrop⟩ := exists_chain_append ht hc
  rw [← htrim] at hfirst
  rw [nesting_chain hfirst, htrim, htake, hdrop, ← nesting_pad (v := []) hu rfl (_ ++ tail),
    List.append_nil]

end Chain

/-- Behind a negation, what is behind the end belongs to what is negated. -/
theorem negation_append {rest : List Char} (hc : Connective.first? (trim cs ++ tail) = none)
    (hn : negated? (trim cs) = some rest) (hne : rest ≠ []) :
    Connective.first? (trim (trim cs ++ tail)) = none ∧
      groupInterior? (trim (trim cs ++ tail)) = none ∧
      negated? (trim (trim cs ++ tail)) = some (rest ++ tail) := by
  rw [ht.trim_append (trimmed_trim cs) (ne_nil_of_negated hn)]
  exact ⟨hc, ht.groupInterior?_append _, negated?_append tail hn hne⟩

/-- Behind a comparison, what is behind the end belongs to the comparison. -/
theorem comparison_append (hlen : 4 ≤ (trim cs).length)
    (hc : Connective.first? (trim cs ++ tail) = none) (hn : negated? (trim cs) = none) :
    (Reads (trim cs ++ tail) m ↔ Comparison.read (trim cs ++ tail) = .ok m) ∧
      nesting (trim cs ++ tail) = 0 := by
  have htrim := ht.trim_append (trimmed_trim cs) (List.ne_nil_of_length_pos (by omega))
  have hg := ht.groupInterior?_append (trim cs)
  have hn' := negated?_append_eq_none tail hlen hn
  rw [← htrim] at hc hg hn'
  have h := @reads_comparison_iff _ m hc hg hn'
  rw [htrim] at h
  exact ⟨h, nesting_comparison hc hg hn'⟩

/-- The value at the end takes in what is behind it: the last value is longer by that, everything
else is read as before. -/
theorem Reads.swallow {t : List Char} (he : EndsBare cs t) :
    ∀ {f}, Reads cs f → Connective.first? (t ++ tail) = none →
      Reads (trim cs ++ tail) (f.extendLast (String.ofList tail)) ∧
        nesting (trim cs ++ tail) = nesting cs := by
  induction he with
  | @chain cs t i w hc _ ih =>
    intro f hf htail
    obtain ⟨l, r, rfl, hl, hr⟩ := (reads_chain_iff hc).1 hf
    obtain ⟨hr, hn⟩ := ih hr htail
    rw [reads_chain_append_iff ht hc, nesting_chain_append ht hc, nesting_chain hc, hn,
      extendLast_join]
    exact ⟨⟨l, _, rfl, hl, hr⟩, rfl⟩
  | @negation cs rest t hc hg hn hrest ih =>
    intro f hf htail
    obtain ⟨g, rfl, hr⟩ := (reads_negation_iff hc hg hn).1 hf
    have hne := hr.ne_nil
    obtain ⟨hc', hg', hn'⟩ := negation_append ht htail hn hne
    have hrestFirst : Connective.first? rest = none := by
      have := first?_eq_none_of_negated [] hn (by rwa [List.append_nil])
      rwa [List.append_nil] at this
    have hrestTail := first?_eq_none_of_negated tail hn htail
    rw [← trim_of_negated hn hne] at hrestFirst hrestTail
    obtain ⟨hr', hlevels⟩ := ih hr (by rwa [hrest.eq_trim hrestFirst])
    rw [trim_of_negated hn hne] at hr' hlevels
    refine ⟨(reads_negation_iff hc' hg' hn').2 ⟨_, rfl, hr'⟩, ?_⟩
    rw [nesting_negation hc' hg' hn', nesting_negation hc hg hn, hlevels]
  | @comparison cs path op value hc hg hn hread hbare =>
    intro f hf htail
    cases ((reads_comparison_iff hc hg hn).1 hf).symm.trans hread
    have hlen := Comparison.four_le_length_of_read hread
    obtain ⟨hiff, hlevels⟩ := comparison_append ht hlen htail hn
    exact ⟨hiff.2 (Comparison.read_append hread hbare),
      hlevels.trans (nesting_comparison hc hg hn).symm⟩

/-- What can be read with a word behind it ends in a bare value. -/
theorem endsBare_of_reads (hf : Reads cs f) : ∀ {m}, Reads (trim cs ++ tail) m →
    ∃ t, EndsBare cs t ∧ Connective.first? (t ++ tail) = none := by
  induction hf with
  | @chain cs i w l r hc _ _ _ ih =>
    intro m hm
    obtain ⟨-, r', -, -, hr⟩ := (reads_chain_append_iff ht hc).1 hm
    obtain ⟨t, ht, hfirst⟩ := ih hr
    exact ⟨t, .chain hc ht, hfirst⟩
  | @group cs inner f hc hg hi ih =>
    intro m hm
    have he := eq_of_groupInterior? hg
    have hne : trim cs ≠ [] := by simp [he]
    have hfirst := first?_append_of_reads ht (trimmed_trim cs) hne hc hm
    have hlen := (reads_trim_iff.2 (.group hc hg hi)).four_le_length
    have hnot : negated? (trim cs) = none := he ▸ negated?_open _
    have hread := (comparison_append ht hlen hfirst hnot).1.1 hm
    -- a comparison begins with a path, and a group does not
    obtain ⟨p, hp, -⟩ := Comparison.read_eq_ok_iff.1 hread
    obtain ⟨c, rest, hcons, hc⟩ := hp.head
    rw [he] at hcons
    cases (List.cons.inj hcons).1
    cases hc
  | @negation cs rest g hc hg hn hi ih =>
    intro m hm
    have hne := hi.ne_nil
    have hfirst := first?_append_of_reads ht (trimmed_trim cs) (ne_nil_of_negated hn) hc hm
    obtain ⟨hc', hg', hn'⟩ := negation_append ht hfirst hn hne
    obtain ⟨g', -, hr⟩ := (reads_negation_iff hc' hg' hn').1 hm
    rw [← trim_of_negated hn hne] at hr
    obtain ⟨t, hends, -⟩ := ih hr
    exact ⟨trim cs, .negation hc hg hn hends, hfirst⟩
  | @comparison cs f hc hg hn hread =>
    intro m hm
    have hlen := Comparison.four_le_length_of_read hread
    have hne : trim cs ≠ [] := List.ne_nil_of_length_pos (by omega)
    have hfirst := first?_append_of_reads ht (trimmed_trim cs) hne hc hm
    have hm := (comparison_append ht hlen hfirst hn).1.1 hm
    obtain ⟨path, op, value, rfl, hbare⟩ :=
      Comparison.bare_of_read_append ht (trimmed_trim cs) hread hm
    exact ⟨trim cs, .comparison hc hg hn hread hbare, hfirst⟩

end Behind

/-! ## Connectives that come up newly -/

/-- In front of plain characters the cursor stands at the start if it does behind them. -/
theorem eq_start_of_behind {cur : Cursor} {cs : List Char}
    (hcs : ∀ c ∈ cs, c ≠ '"' ∧ c ≠ '(' ∧ c ≠ ')') (h : cur.behind cs = Cursor.start) :
    cur = Cursor.start := by
  induction cs generalizing cur with
  | nil => exact h
  | cons c cs ih =>
    obtain ⟨⟨hq, ho, hs⟩, hcs⟩ := List.forall_mem_cons.1 hcs
    have hstep := ih hcs h
    obtain ⟨place, d⟩ := cur
    cases place with
    | outside => rwa [Cursor.step_plain hq ho hs] at hstep
    | escaped => cases hstep
    | inside =>
      have hplace : Place.next .inside c = .outside := congrArg Cursor.place hstep
      simp only [Place.next, if_neg hq] at hplace
      split at hplace <;> cases hplace

/-- A connective at the end of a text, behind a blank or a closing parenthesis. -/
def EndsInConnective (cs : List Char) : Prop :=
  ∃ (front kw : List Char) (w : Connective),
    cs = front ++ kw ∧ Connective.mayFollow front.getLast? = true ∧ lowerText kw = w.word

/-- A text that ends outside literals and parentheses, without dotted capitals. -/
structure Closed (cs : List Char) : Prop where
  behind : Cursor.start.behind cs = Cursor.start
  plain : 'İ' ∉ cs

theorem Closed.trim {cs : List Char} (h : Closed cs) : Closed (trim cs) := by
  obtain ⟨u, v, hu, hv, he⟩ := exists_blanks_trim cs
  have hplain {b : List Char} (hb : allBlank b = true) : ∀ c ∈ b, c ≠ '"' ∧ c ≠ '(' ∧ c ≠ ')' :=
    fun c hc =>
      have hblank := allBlank_iff.1 hb c hc
      ⟨isBlank_ne hblank (by decide), isBlank_ne hblank (by decide), isBlank_ne hblank (by decide)⟩
  obtain ⟨hcur, hI⟩ := h
  rw [he, Cursor.behind_append, Cursor.behind_append, Cursor.start,
    Cursor.behind_balanced (balanced_of_allBlank hu)] at hcur
  rw [he, List.mem_append, List.mem_append, not_or, not_or] at hI
  exact ⟨eq_start_of_behind (hplain hv) hcur, hI.1.2⟩

/-- The last term of a closed text is closed and holds no connective. -/
theorem EndsBare.closed {cs t : List Char} (h : EndsBare cs t) (hcs : Closed cs) :
    Closed t ∧ Connective.first? t = none := by
  induction h with
  | @chain cs t i w hc _ ih =>
    refine ih ?_
    obtain ⟨hcur, hI⟩ := hcs.trim
    obtain ⟨front, kw, c, rest, he, hi, hkw, hfront, -⟩ := Connective.exists_spelled_of_first? hI hc
    have hlen : i + w.word.length = (front ++ kw).length := by
      rw [List.length_append, hi, ← hkw, length_lowerText (Connective.letters_of_word hkw).1]
    rw [he, ← List.append_assoc] at hcur hI ⊢
    rw [hlen, List.drop_left]
    rw [Cursor.behind_append, Cursor.behind_append, hfront, Cursor.start,
      Cursor.behind_balanced (balanced_of_letters (Connective.letters_of_word hkw).2)] at hcur
    exact ⟨hcur, fun hmem => hI (List.mem_append_right _ hmem)⟩
  | negation hc | comparison hc => exact ⟨hcs.trim, hc⟩

section Newly

variable {t tail : List Char} (hcs : Closed t) (ht : LooseEnd tail)

include hcs ht

/-- In front of blanks the connective at the end of a closed text comes up. -/
theorem first?_append_ne_none (h : EndsInConnective t) : Connective.first? (t ++ tail) ≠ none := by
  obtain ⟨-, gap, kw', rfl, ⟨hne, hblank⟩, -⟩ := ht
  obtain ⟨d, gap, rfl⟩ := List.exists_cons_of_ne_nil hne
  obtain ⟨front, kw, w, rfl, hfollow, hkw⟩ := h
  obtain ⟨hI, hletters⟩ := Connective.letters_of_word hkw
  obtain ⟨hcur, hplain⟩ := hcs
  rw [List.mem_append, not_or] at hplain
  rw [Cursor.behind_append] at hcur
  have hfront := eq_start_of_behind (fun c hc =>
    have hp := plain_of_letters hletters c hc
    ⟨hp.1, hp.2.1, hp.2.2.1⟩) hcur
  intro hnone
  -- in front of the word nothing is found, so the search comes to the word
  unfold Connective.first? at hnone
  rw [List.append_assoc] at hnone
  rw [Connective.search?_skipped (Connective.skipped_of_search?_eq_none hnone),
    drop_lowerText hplain.1, hfront, Option.map_eq_none_iff, Option.or_none] at hnone
  have hstands := Connective.standsAt_spelled hkw
    (.inl (allBlank_iff.1 hblank d List.mem_cons_self)) (gap ++ kw')
  obtain ⟨l, kw, rfl⟩ := List.exists_cons_of_ne_nil (Connective.ne_nil_of_word hkw)
  obtain ⟨hq, ho, hs, -⟩ := plain_of_letters hletters l List.mem_cons_self
  rw [List.cons_append] at hstands
  rw [List.cons_append, List.cons_append] at hnone
  rw [Connective.search?_cons_of_some
    (Connective.here?_eq_some_iff.2 ⟨⟨rfl, rfl, hq, ho, hs, hfollow⟩, hstands⟩)] at hnone
  cases hnone

/-- A connective that comes up newly stands at the end of the text. -/
theorem endsInConnective_of_first? (hc : Connective.first? t = none) {p : Nat × Connective}
    (h : Connective.first? (t ++ tail) = some p) : EndsInConnective t := by
  obtain ⟨i, w⟩ := p
  have hI : 'İ' ∉ t ++ tail := by
    rw [List.mem_append, not_or]
    exact ⟨hcs.plain, ht.plain⟩
  obtain ⟨front, kw, c, rest, he, hi, hkw, -, hfollow, hend⟩ :=
    Connective.exists_spelled_of_first? hI h
  obtain ⟨hIkw, hletters⟩ := Connective.letters_of_word hkw
  have hle : t.length ≤ (front ++ kw).length := by
    rw [List.length_append, ← length_lowerText hIkw, hkw, hi]
    exact Connective.le_of_first?_append hc h
  rw [← List.append_assoc] at he
  obtain ⟨x, hx⟩ : t <+: front ++ kw :=
    List.prefix_of_prefix_length_le (he ▸ List.prefix_append t tail) (List.prefix_append _ _) hle
  rw [← hx, List.append_assoc] at he
  have htail := List.append_cancel_left he
  obtain ⟨w', gap, kw', rfl, ⟨-, hgap⟩, hkw'⟩ := ht
  -- what is behind the word is no letter, so the word ends among the blanks
  have hblank : ∀ z ∈ x, isBlank z = true := by
    rcases List.append_eq_append_iff.1 htail with ⟨y, -, hy⟩ | ⟨y, hy, -⟩
    · have hletter := (Connective.letters_of_word hkw').2 c (by simp [hy])
      rcases hend with hend | rfl
      · rw [isLatinLetter_of_isBlank hend] at hletter
        cases hletter
      · cases hletter
    · exact fun z hz => allBlank_iff.1 hgap z (by simp [hy, hz])
  rcases List.eq_nil_or_concat x with rfl | ⟨y, z, rfl⟩
  · rw [List.append_nil] at hx
    exact ⟨front, kw, w, hx, hfollow, hkw⟩
  · have hne := Connective.ne_nil_of_word hkw
    have hlast := congrArg List.getLast? hx
    rw [List.concat_eq_append, ← List.append_assoc, List.getLast?_concat,
      List.getLast?_append_of_ne_nil _ hne] at hlast
    have hz := (plain_of_letters hletters z (List.mem_of_getLast? hlast.symm)).2.2.2
    rw [hblank z (by simp)] at hz
    cases hz

/-- In a closed text without connectives, one comes up newly iff the text ends in it. -/
theorem first?_append_eq_none_iff (hc : Connective.first? t = none) :
    Connective.first? (t ++ tail) = none ↔ ¬ EndsInConnective t := by
  constructor
  · exact fun hnone h => first?_append_ne_none hcs ht h hnone
  · intro hnot
    exact Option.eq_none_iff_forall_ne_some.2 fun p hp =>
      hnot (endsInConnective_of_first? hcs ht hc hp)

end Newly

/-! ## Refusal -/

/-- A string of one or more blanks. -/
def Gap : Type := { s : String // Comparison.IsGap s.toList }

/-- A filter, blanks and a connective in any letter case. -/
def dangling {w : Connective} (f : String) (gap : Gap) (k : Spelling w.word) : String :=
  f ++ gap.1 ++ k.1

/-- What stands behind the last character of a filter that is not blank. -/
def looseEnd {w : Connective} (f : String) (gap : Gap) (k : Spelling w.word) : List Char :=
  f.toList.rtakeWhile isBlank ++ gap.1.toList ++ k.1.toList

section Dangling

variable {w : Connective} (f : String) (gap : Gap) (k : Spelling w.word)

theorem isLooseEnd_looseEnd : LooseEnd (looseEnd f gap k) := by
  refine ⟨w, f.toList.rtakeWhile isBlank ++ gap.1.toList, k.1.toList, rfl, ?_, k.2⟩
  exact ⟨List.append_ne_nil_of_right_ne_nil _ gap.2.1, allBlank_append.2
    ⟨allBlank_iff.2 fun c hc => List.mem_rtakeWhile_imp hc, gap.2.2⟩⟩

theorem exists_toList_dangling :
    ∃ u, allBlank u = true ∧
      (dangling f gap k).toList = u ++ (trim f.toList ++ looseEnd f gap k) ++ [] := by
  have hsplit := List.rdropWhile_append_rtakeWhile (p := isBlank) (l := f.toList)
  have htrim : trim (f.toList.rdropWhile isBlank) = trim f.toList := by
    have hblank : allBlank (f.toList.rtakeWhile isBlank) = true :=
      allBlank_iff.2 fun c hc => List.mem_rtakeWhile_imp hc
    have := trim_pad (u := []) rfl hblank (f.toList.rdropWhile isBlank)
    rw [List.nil_append, hsplit] at this
    exact this.symm
  obtain ⟨u, hu, he⟩ := exists_blanks_of_getLast? (f.toList.rdropWhile isBlank) fun c hc => by
    have hne : f.toList.rdropWhile isBlank ≠ [] := List.ne_nil_of_mem (List.mem_of_getLast? hc)
    rw [List.getLast?_eq_some_getLast hne] at hc
    rw [← Option.some.inj hc]
    exact Bool.eq_false_iff.2 (List.rdropWhile_last_not isBlank f.toList hne)
  refine ⟨u, hu, ?_⟩
  rw [htrim] at he
  calc (dangling f gap k).toList
      = f.toList.rdropWhile isBlank ++ looseEnd f gap k := by
        rw [looseEnd, ← List.append_assoc, ← List.append_assoc, hsplit]
        simp [dangling]
    _ = _ := by rw [he]; simp

/-- **Connectives with nothing behind them.** Behind an accepted filter, blanks and a connective in
any letter case are refused, unless the filter ends in a bare value outside parentheses behind which
no connective comes up newly. Such a filter is accepted again, and its last value is longer by all
that stands behind it. Without dotted capitals a connective comes up newly iff the last term ends in
one. -/
theorem dangling_connective {n : Filter} (hf : parse f = .ok n) :
    (∀ t, EndsBare f.toList t → Connective.first? (t ++ looseEnd f gap k) = none →
      parse (dangling f gap k) = .ok (n.extendLast (String.ofList (looseEnd f gap k)))) ∧
    ((¬ ∃ t, EndsBare f.toList t ∧ Connective.first? (t ++ looseEnd f gap k) = none) →
      ∃ e, parse (dangling f gap k) = .error e) ∧
    ('İ' ∉ f.toList → ∀ t, EndsBare f.toList t →
      (Connective.first? (t ++ looseEnd f gap k) = none ↔ ¬ EndsInConnective t)) := by
  have ht := isLooseEnd_looseEnd f gap k
  obtain ⟨hb, hr, hn⟩ := parse_eq_ok_iff.1 hf
  obtain ⟨u, hu, he⟩ := exists_toList_dangling f gap k
  have hiff (m : Filter) : parse (dangling f gap k) = .ok m ↔ Balanced (dangling f gap k).toList ∧
      Reads (trim f.toList ++ looseEnd f gap k) m ∧
      nesting (trim f.toList ++ looseEnd f gap k) < nestingLimit := by
    rw [parse_eq_ok_iff]
    conv_lhs => rw [he, reads_pad (v := []) hu rfl, nesting_pad (v := []) hu rfl, ← he]
  refine ⟨fun t hends htail => ?_, fun hno => ?_, fun hI t hends => ?_⟩
  · obtain ⟨hreads, hlevels⟩ := hr.swallow ht hends htail
    refine (hiff _).2 ⟨?_, hreads, hlevels ▸ hn⟩
    have hword := balanced_of_letters (Connective.letters_of_word k.2).2
    simpa [dangling] using (hb.append (balanced_of_allBlank gap.2.2)).append hword
  · cases hp : parse (dangling f gap k) with
    | error e => exact ⟨e, rfl⟩
    | ok m => exact absurd (endsBare_of_reads ht hr ((hiff m).1 hp).2.1) hno
  · have hclosed : Closed f.toList := ⟨Cursor.behind_balanced hb 0, hI⟩
    obtain ⟨hclosed, hfirst⟩ := hends.closed hclosed
    exact first?_append_eq_none_iff hclosed ht hfirst

end Dangling

/-- The bare value behind a `not` takes in a connective in capitals. -/
theorem dangling_connective_swallowed :
    parse "a pr and not b co x \tOR" =
      .ok (.and (.present "a") (.not (.compare "b" "co" "x \tOR"))) := by
  have hf : parse "a pr and not b co x" =
      .ok (.and (.present "a") (.not (.compare "b" "co" "x"))) :=
    eq_ok_of_toOption (by decide +kernel)
  have hterm : EndsBare "b co x".toList "b co x".toList :=
    @EndsBare.comparison "b co x".toList "b" "co" "x" (by decide +kernel) (by decide) (by decide)
      (eq_ok_of_toOption (by decide +kernel)) (by decide)
  have hends : EndsBare "a pr and not b co x".toList "not b co x".toList :=
    .chain (i := 5) (w := .and) (by decide +kernel)
      (@EndsBare.negation " not b co x".toList _ _ (by decide +kernel) (by decide) (by decide)
        hterm)
  exact (dangling_connective "a pr and not b co x" ⟨" \t", by decide, by decide⟩ (w := .or)
    ⟨"OR", by decide⟩ hf).1 _ hends (by decide +kernel)

/-- A number takes in a connective. -/
theorem dangling_connective_accepted :
    parse "a eq 5" = .ok (.compare "a" "eq" "5") ∧
      parse "a eq 5 and" = .ok (.compare "a" "eq" "5 and") :=
  ⟨eq_ok_of_toOption (by decide +kernel), eq_ok_of_toOption (by decide +kernel)⟩

end Filter

end ScimBridge
