import ScimBridge.Filter.Parser
import ScimBridge.Proofs.Filter.Comparison
import ScimBridge.Proofs.Filter.Search
import ScimBridge.Proofs.Outcomes

/-!
# The grammar of filters

`Reads cs f` is the plain recursive reading of a text: it splits at the first connective, takes the
inside of a group, takes what follows a `not`, and reads everything else as a comparison. The reader
walks chains and redundant parentheses in loops instead, and reads what stands to the left of a
connective as a term rather than as an expression.

`parse_eq_ok_iff`: the reader accepts a text with a filter exactly when the text is balanced, the
plain reading gives that filter, and the nesting stays within the limit.

1. The plain reading does not see blanks around a text (`Reads.of_trim_eq`), and in each of its four
   situations it is settled by one equation (`reads_chain_iff` and its neighbours).
2. `readPart_eq_ok_iff`: the loop over redundant parentheses.
3. `readChain_eq_ok_iff`: the walk over a chain. The text to the left of the first connective holds
   no further one (`first?_trim_take`), so to read it as a term is to read it as an expression.
4. `readExpression_eq_ok_iff`: by induction on the number of levels.
-/

namespace ScimBridge

namespace Filter

/-! ## A leading `not` -/

section Negated

variable {kw : List Char} (hkw : lowerText kw = ['n', 'o', 't'])

include hkw

theorem letters_of_not : 'İ' ∉ kw ∧ ∀ c ∈ kw, isLatinLetter c = true :=
  letters_of_lowerText hkw (List.all_eq_true.1 (by decide))

theorem exists_not : ∃ n o t, kw = [n, o, t] := by
  have hl := length_lowerText (letters_of_not hkw).1
  rw [hkw] at hl
  exact List.length_eq_three.1 hl.symm

end Negated

/-- A leading `not` is followed by a parenthesis, or by blanks and something else. -/
theorem negated?_eq_some_iff {cs rest : List Char} :
    negated? cs = some rest ↔
      ∃ kw gap, cs = kw ++ (gap ++ rest) ∧ lowerText kw = ['n', 'o', 't'] ∧ allBlank gap = true ∧
        (∀ c, rest.head? = some c → isBlank c = false) ∧ (gap = [] → rest.head? = some '(') := by
  constructor
  · intro h
    unfold negated? at h
    split at h
    · rename_i n o t tail
      split at h
      · rename_i hkw
        split at h
        · cases h
          refine ⟨[n, o, t], [], rfl, hkw, rfl, fun c hc => ?_, fun _ => rfl⟩
          cases hc
          decide
        · obtain ⟨gap, rfl, ⟨hne, hgap⟩, hhead⟩ := Comparison.afterBlanks?_eq_some_iff.1 h
          exact ⟨[n, o, t], gap, rfl, hkw, hgap, hhead, fun h => absurd h hne⟩
      · cases h
    · cases h
  · rintro ⟨kw, gap, rfl, hkw, hgap, hhead, hopen⟩
    obtain ⟨n, o, t, rfl⟩ := exists_not hkw
    show (if lowerText [n, o, t] = ['n', 'o', 't'] then _ else none) = _
    rw [if_pos hkw]
    split
    · rename_i tail he
      cases gap with
      | nil => rfl
      | cons d gap =>
        cases (List.cons.inj he).1
        cases allBlank_iff.1 hgap '(' List.mem_cons_self
    · rename_i hnot
      have hne : gap ≠ [] := by
        rintro rfl
        cases rest with
        | nil => cases hopen rfl
        | cons c rest =>
          cases hopen rfl
          exact hnot rest rfl
      exact Comparison.afterBlanks?_eq_some_iff.2 ⟨gap, rfl, ⟨hne, hgap⟩, hhead⟩

/-- A parenthesis is no `not`. -/
theorem negated?_open (cs : List Char) : negated? ('(' :: cs) = none := by
  refine Option.eq_none_iff_forall_ne_some.2 fun rest hr => ?_
  obtain ⟨kw, gap, he, hkw, -⟩ := negated?_eq_some_iff.1 hr
  obtain ⟨n, o, t, rfl⟩ := exists_not hkw
  have hn : n = '(' := (List.cons.inj he).1.symm
  exact (plain_of_letters (letters_of_not hkw).2 n List.mem_cons_self).2.1 hn

/-! ## The plain reading -/

/-- What a text reads as. -/
inductive Reads : List Char → Filter → Prop
  | chain {cs : List Char} {i : Nat} {w : Connective} {l r : Filter} :
      Connective.first? (trim cs) = some (i, w) → Reads ((trim cs).take i) l →
      Reads ((trim cs).drop (i + w.word.length)) r → Reads cs (w.join l r)
  | group {cs inner : List Char} {f : Filter} :
      Connective.first? (trim cs) = none → groupInterior? (trim cs) = some inner →
      Reads inner f → Reads cs f
  | negation {cs rest : List Char} {f : Filter} :
      Connective.first? (trim cs) = none → groupInterior? (trim cs) = none →
      negated? (trim cs) = some rest → Reads rest f → Reads cs (.not f)
  | comparison {cs : List Char} {f : Filter} :
      Connective.first? (trim cs) = none → groupInterior? (trim cs) = none →
      negated? (trim cs) = none → Comparison.read (trim cs) = .ok f → Reads cs f

/-- Blanks around a text do not matter to its reading. -/
theorem Reads.of_trim_eq {cs ds : List Char} {f : Filter} (h : Reads cs f)
    (he : trim cs = trim ds) : Reads ds f := by
  cases h with
  | chain hc hl hr =>
    rw [he] at hc hl hr
    exact .chain hc hl hr
  | group hc hg hi =>
    rw [he] at hc hg
    exact .group hc hg hi
  | negation hc hg hn hi =>
    rw [he] at hc hg hn
    exact .negation hc hg hn hi
  | comparison hc hg hn hr =>
    rw [he] at hc hg hn hr
    exact .comparison hc hg hn hr

theorem reads_trim_iff {cs : List Char} {f : Filter} : Reads (trim cs) f ↔ Reads cs f :=
  ⟨fun h => h.of_trim_eq (trim_trim cs), fun h => h.of_trim_eq (trim_trim cs).symm⟩

section Equations

variable {cs : List Char} {f : Filter}

theorem reads_chain_iff {i : Nat} {w : Connective}
    (hc : Connective.first? (trim cs) = some (i, w)) :
    Reads cs f ↔ ∃ l r, f = w.join l r ∧ Reads ((trim cs).take i) l ∧
      Reads ((trim cs).drop (i + w.word.length)) r := by
  constructor
  · intro h
    cases h with
    | chain hc' hl hr =>
      cases hc.symm.trans hc'
      exact ⟨_, _, rfl, hl, hr⟩
    | group hc' | negation hc' | comparison hc' => cases hc.symm.trans hc'
  · rintro ⟨l, r, rfl, hl, hr⟩
    exact .chain hc hl hr

variable (hc : Connective.first? (trim cs) = none)

include hc

theorem reads_group_iff {inner : List Char} (hg : groupInterior? (trim cs) = some inner) :
    Reads cs f ↔ Reads inner f := by
  constructor
  · intro h
    cases h with
    | group _ hg' hi =>
      cases hg.symm.trans hg'
      exact hi
    | chain hc' => cases hc.symm.trans hc'
    | negation _ hg' | comparison _ hg' => cases hg.symm.trans hg'
  · exact .group hc hg

variable (hg : groupInterior? (trim cs) = none)

include hg

theorem reads_negation_iff {rest : List Char} (hn : negated? (trim cs) = some rest) :
    Reads cs f ↔ ∃ g, f = .not g ∧ Reads rest g := by
  constructor
  · intro h
    cases h with
    | negation _ _ hn' hi =>
      cases hn.symm.trans hn'
      exact ⟨_, rfl, hi⟩
    | chain hc' => cases hc.symm.trans hc'
    | group _ hg' => cases hg.symm.trans hg'
    | comparison _ _ hn' => cases hn.symm.trans hn'
  · rintro ⟨g, rfl, hi⟩
    exact .negation hc hg hn hi

theorem reads_comparison_iff (hn : negated? (trim cs) = none) :
    Reads cs f ↔ Comparison.read (trim cs) = .ok f := by
  constructor
  · intro h
    cases h with
    | comparison _ _ _ hr => exact hr
    | chain hc' => cases hc.symm.trans hc'
    | group _ hg' => cases hg.symm.trans hg'
    | negation _ _ hn' => cases hn.symm.trans hn'
  · exact .comparison hc hg hn

end Equations

/-- A blank text reads as nothing. -/
theorem not_reads_of_trim_eq_nil {cs : List Char} (h : trim cs = []) (f : Filter) :
    ¬ Reads cs f := by
  rw [reads_comparison_iff (by rw [h]; rfl) (by rw [h]; rfl) (by rw [h]; rfl), h]
  intro hr
  cases hr

theorem Reads.not_allBlank {cs : List Char} {f : Filter} (h : Reads cs f) :
    ¬ allBlank cs = true :=
  fun hb => not_reads_of_trim_eq_nil (trim_eq_nil_iff.2 hb) f h

theorem Reads.ne_nil {cs : List Char} {f : Filter} (h : Reads cs f) : cs ≠ [] := by
  rintro rfl
  exact h.not_allBlank rfl

/-- What a text reads as is well-formed. -/
theorem Reads.wellFormed {cs : List Char} {f : Filter} (h : Reads cs f) : f.WellFormed := by
  induction h with
  | @chain _ _ w _ _ _ _ _ ihl ihr => cases w <;> exact ⟨ihl, ihr⟩
  | group _ _ _ ih => exact ih
  | negation _ _ _ _ ih => exact ih
  | comparison _ _ _ hr => exact Comparison.wellFormed_of_read (trimmed_trim _) hr

/-! ## Nesting -/

theorem length_negated?_lt {cs rest : List Char} (h : negated? cs = some rest) :
    rest.length < cs.length := by
  obtain ⟨kw, gap, rfl, hkw, -⟩ := negated?_eq_some_iff.1 h
  obtain ⟨n, o, t, rfl⟩ := exists_not hkw
  simp only [List.length_append, List.length_cons]
  omega

/-- How many levels deep a text is nested: each `not` is a level, and each group in parentheses that
holds a connective. -/
def nesting (cs : List Char) : Nat :=
  match _hc : Connective.first? (trim cs) with
  | some (i, w) =>
    max (nesting ((trim cs).take i)) (nesting ((trim cs).drop (i + w.word.length)))
  | none =>
    match _hg : groupInterior? (trim cs) with
    | some inner => nesting inner + if (Connective.first? (trim inner)).isSome then 1 else 0
    | none =>
      match _hn : negated? (trim cs) with
      | some rest => nesting rest + 1
      | none => 0
termination_by cs.length
decreasing_by
  all_goals have ht := length_trim_le cs
  · have := Connective.first?_lt _hc
    rw [List.length_take]
    omega
  · have := Connective.first?_lt _hc
    have hw : 0 < w.word.length := by cases w <;> decide
    rw [List.length_drop]
    omega
  · exact Nat.lt_of_lt_of_le (length_groupInterior_lt _hg) ht
  · exact Nat.lt_of_lt_of_le (length_negated?_lt _hn) ht

section NestingEquations

variable {cs : List Char}

theorem nesting_chain {i : Nat} {w : Connective}
    (hc : Connective.first? (trim cs) = some (i, w)) :
    nesting cs =
      max (nesting ((trim cs).take i)) (nesting ((trim cs).drop (i + w.word.length))) := by
  rw [nesting]
  split
  · rename_i hc'
    cases hc.symm.trans hc'
    rfl
  · rename_i hc'
    cases hc.symm.trans hc'

theorem nesting_group (hc : Connective.first? (trim cs) = none) {inner : List Char}
    (hg : groupInterior? (trim cs) = some inner) :
    nesting cs =
      nesting inner + if (Connective.first? (trim inner)).isSome then 1 else 0 := by
  rw [nesting]
  split
  · rename_i hc'
    cases hc.symm.trans hc'
  · split
    · rename_i hg'
      cases hg.symm.trans hg'
      rfl
    · rename_i hg'
      cases hg.symm.trans hg'

theorem nesting_negation (hc : Connective.first? (trim cs) = none)
    (hg : groupInterior? (trim cs) = none) {rest : List Char}
    (hn : negated? (trim cs) = some rest) : nesting cs = nesting rest + 1 := by
  rw [nesting]
  split
  · rename_i hc'
    cases hc.symm.trans hc'
  · split
    · rename_i hg'
      cases hg.symm.trans hg'
    · split
      · rename_i hn'
        cases hn.symm.trans hn'
        rfl
      · rename_i hn'
        cases hn.symm.trans hn'

theorem nesting_comparison (hc : Connective.first? (trim cs) = none)
    (hg : groupInterior? (trim cs) = none) (hn : negated? (trim cs) = none) :
    nesting cs = 0 := by
  rw [nesting]
  split
  · rename_i hc'
    cases hc.symm.trans hc'
  · split
    · rename_i hg'
      cases hg.symm.trans hg'
    · split
      · rename_i hn'
        cases hn.symm.trans hn'
      · rfl

/-- Blanks around a text do not matter to its nesting. -/
theorem nesting_congr {ds : List Char} (h : trim cs = trim ds) : nesting cs = nesting ds := by
  rw [nesting.eq_def cs, nesting.eq_def ds, h]

end NestingEquations

/-! ## The reader -/

section Levels

/-- A reader of what is nested one level deeper, which takes up to a number of levels. -/
def ReadsWithin (nested : List Char → Except FilterError Filter) (levels : Nat) : Prop :=
  ∀ cs f, nested cs = .ok f ↔ Reads cs f ∧ nesting cs < levels

variable {nested : List Char → Except FilterError Filter} {levels : Nat}
  (hnested : ReadsWithin nested levels)

include hnested

/-- Redundant parentheses are taken off one pair at a time until a connective, a `not` or a
comparison shows. The induction is on the length of what is left. -/
theorem readPart_eq_ok_iff {whole cs : List Char} {f : Filter} (ht : trim cs = cs)
    (hc : Connective.first? cs = none) :
    readPart nested whole cs = .ok f ↔ Reads cs f ∧ nesting cs ≤ levels := by
  fun_induction readPart nested whole cs with
  | case1 cs hg =>
    rw [← ht] at hc hg
    unfold readSimple
    cases hn : negated? cs with
    | some rest =>
      rw [← ht] at hn
      rw [reads_negation_iff hc hg hn, nesting_negation hc hg hn]
      show (nested rest).map .not = .ok f ↔ _
      rw [map_eq_ok_iff]
      simp only [hnested rest _]
      constructor
      · rintro ⟨g, ⟨hr, hlt⟩, rfl⟩
        exact ⟨⟨g, rfl, hr⟩, hlt⟩
      · rintro ⟨⟨g, rfl, hr⟩, hlt⟩
        exact ⟨g, ⟨hr, hlt⟩, rfl⟩
    | none =>
      rw [← ht] at hn
      rw [reads_comparison_iff hc hg hn, nesting_comparison hc hg hn, ht]
      simp
  | case2 cs interior hg inner hi =>
    rw [← ht] at hc hg
    rw [reads_group_iff hc hg]
    constructor
    · intro h
      cases h
    · rintro ⟨hr, -⟩
      exact absurd hr (not_reads_of_trim_eq_nil hi f)
  | case3 cs interior hg inner hi hs =>
    rw [← ht] at hc hg
    rw [reads_group_iff hc hg, nesting_group hc hg, if_pos hs, hnested inner f, reads_trim_iff,
      nesting_congr (trim_trim interior)]
    rfl
  | case4 cs interior hg inner hi hs ih =>
    rw [← ht] at hc hg
    rw [Option.not_isSome_iff_eq_none] at hs
    rw [ih (trim_trim interior) hs, reads_group_iff hc hg, nesting_group hc hg, reads_trim_iff,
      nesting_congr (trim_trim interior), show trim interior = inner from rfl, hs]
    rfl

theorem readTerm_eq_ok_iff {cs : List Char} {f : Filter}
    (hc : Connective.first? (trim cs) = none) :
    readTerm nested cs = .ok f ↔ Reads cs f ∧ nesting cs ≤ levels := by
  unfold readTerm
  rw [readPart_eq_ok_iff hnested (trim_trim cs) hc, reads_trim_iff, nesting_congr (trim_trim cs)]

/-- The walk over a chain reads the terms from left to right and joins them from the right, which is
the plain reading of the chain. -/
theorem readChain_eq_ok_iff {terms : List (Filter × Connective)} {cs : List Char} {f : Filter}
    (ht : trim cs = cs) :
    readChain nested terms cs = .ok f ↔
      ∃ g, f = joinChain terms g ∧ Reads cs g ∧ nesting cs ≤ levels := by
  fun_induction readChain nested terms cs with
  | case1 terms cs hc =>
    rw [map_eq_ok_iff]
    rw [← ht] at hc
    simp only [readTerm_eq_ok_iff hnested hc]
    constructor
    · rintro ⟨g, hg, rfl⟩
      exact ⟨g, rfl, hg⟩
    · rintro ⟨g, rfl, hg⟩
      exact ⟨g, hg, rfl⟩
  | case2 terms cs i w hc left right hb =>
    rw [← ht] at hc
    constructor
    · intro h
      cases h
    · rintro ⟨g, -, hr, -⟩
      rw [reads_chain_iff hc, ht] at hr
      obtain ⟨l, r, -, hl, hr⟩ := hr
      rw [Bool.or_eq_true, ← trim_eq_nil_iff, ← trim_eq_nil_iff] at hb
      rcases hb with hb | hb
      · exact absurd hl (not_reads_of_trim_eq_nil hb l)
      · exact absurd hr (not_reads_of_trim_eq_nil hb r)
  | case3 terms cs i w hc left right hb e he =>
    have hterm (l : Filter) : readTerm nested left = .ok l ↔ Reads left l ∧ nesting left ≤ levels :=
      readTerm_eq_ok_iff hnested (Connective.first?_trim_take (trimmed_of_trim_eq ht) hc)
    rw [← ht] at hc
    constructor
    · intro h
      cases h
    · rintro ⟨g, -, hr, hle⟩
      rw [reads_chain_iff hc, ht] at hr
      rw [nesting_chain hc, ht] at hle
      obtain ⟨l, r, -, hl, -⟩ := hr
      cases he.symm.trans ((hterm _).2 ⟨hl, Nat.le_trans (Nat.le_max_left _ _) hle⟩)
  | case4 terms cs i w hc left right hb term hl ih =>
    have hterm (l : Filter) : readTerm nested left = .ok l ↔ Reads left l ∧ nesting left ≤ levels :=
      readTerm_eq_ok_iff hnested (Connective.first?_trim_take (trimmed_of_trim_eq ht) hc)
    rw [← ht] at hc
    rw [ih (trim_trim right)]
    simp only [reads_trim_iff, nesting_congr (trim_trim right)]
    rw [nesting_chain hc, ht]
    obtain ⟨hreads, hle⟩ := (hterm term).1 hl
    constructor
    · rintro ⟨g, rfl, hr, hrle⟩
      exact ⟨w.join term g, rfl, (reads_chain_iff hc).2 ⟨term, g, rfl, by rwa [ht], by rwa [ht]⟩,
        Nat.max_le.2 ⟨hle, hrle⟩⟩
    · rintro ⟨g, rfl, hg, hgle⟩
      rw [reads_chain_iff hc, ht] at hg
      obtain ⟨l, r, rfl, hl', hr⟩ := hg
      rw [Nat.max_le] at hgle
      cases hl.symm.trans ((hterm _).2 ⟨hl', hgle.1⟩)
      exact ⟨r, rfl, hr, hgle.2⟩

end Levels

theorem readExpression_eq_ok_iff (levels : Nat) : ReadsWithin (readExpression levels) levels := by
  induction levels with
  | zero =>
    intro cs f
    constructor
    · intro h
      cases h
    · rintro ⟨-, h⟩
      exact absurd h (Nat.not_lt_zero _)
  | succ levels ih =>
    intro cs f
    unfold readExpression
    by_cases hnil : trim cs = []
    · rw [if_pos hnil]
      constructor
      · intro h
        cases h
      · rintro ⟨h, -⟩
        exact absurd h (not_reads_of_trim_eq_nil hnil f)
    · rw [if_neg hnil, readChain_eq_ok_iff ih (trim_trim cs)]
      simp only [reads_trim_iff, nesting_congr (trim_trim cs), joinChain, List.foldl_nil]
      rw [Nat.lt_succ_iff]
      constructor
      · rintro ⟨g, rfl, hg⟩
        exact hg
      · intro h
        exact ⟨f, rfl, h⟩

/-- The reader accepts a text with a filter exactly when its literals are closed and its parentheses
match, the plain reading gives that filter, and the text is not nested too deeply. -/
theorem parse_eq_ok_iff {text : String} {f : Filter} :
    parse text = .ok f ↔
      Balanced text.toList ∧ Reads text.toList f ∧ nesting text.toList < nestingLimit := by
  unfold parse
  by_cases hb : allBlank text.toList = true
  · rw [if_pos hb]
    constructor
    · intro h
      cases h
    · rintro ⟨-, h, -⟩
      exact absurd h (not_reads_of_trim_eq_nil (trim_eq_nil_iff.2 hb) f)
  · rw [if_neg hb, ← balanceFault?_eq_none_iff]
    cases hf : balanceFault? text.toList with
    | some fault =>
      constructor
      · intro h
        cases h
      · rintro ⟨h, -⟩
        cases h
    | none =>
      show (readExpression nestingLimit text.toList).mapError (nameWhole text.toList) = .ok f ↔ _
      rw [mapError_eq_ok_iff, readExpression_eq_ok_iff nestingLimit text.toList f]
      simp only [true_and]

/-! ## Refusals for depth -/

/-- A comparison is never refused for its depth. -/
theorem fault_ne_of_read {cs : List Char} {e : FilterError} (h : Comparison.read cs = .error e) :
    e.fault ≠ .nestedTooDeeply := by
  unfold Comparison.read at h
  split at h
  · cases h
    simp
  · obtain ⟨fault, hf, rfl⟩ := mapError_eq_error_iff.1 h
    rintro (rfl : fault = .nestedTooDeeply)
    unfold Comparison.Parts.filter at hf
    simp only at hf
    split_ifs at hf <;> cases hf

theorem fault?_ne_nestedTooDeeply (cur : Cursor) (cs : List Char) :
    cur.fault? cs ≠ some .nestedTooDeeply := by
  induction cs generalizing cur with
  | nil =>
    unfold Cursor.fault?
    split_ifs <;> simp
  | cons c cs ih =>
    rw [Cursor.fault?_cons]
    split
    · simp
    · exact ih (cur.step c)

section Depth

/-- A reader that refuses a text for its depth only if the text is nested that deeply. -/
def DeepBeyond (nested : List Char → Except FilterError Filter) (levels : Nat) : Prop :=
  ∀ cs e, nested cs = .error e → e.fault = .nestedTooDeeply → levels ≤ nesting cs

variable {nested : List Char → Except FilterError Filter} {levels : Nat}
  (hnested : DeepBeyond nested levels)

include hnested

theorem lt_nesting_of_readPart {whole cs : List Char} {e : FilterError} (ht : trim cs = cs)
    (hc : Connective.first? cs = none) (h : readPart nested whole cs = .error e)
    (he : e.fault = .nestedTooDeeply) : levels < nesting cs := by
  fun_induction readPart nested whole cs with
  | case1 cs hg =>
    rw [← ht] at hc hg
    unfold readSimple at h
    split at h
    · rename_i rest hn
      rw [← ht] at hn
      rw [nesting_negation hc hg hn, Nat.lt_succ_iff]
      exact hnested rest e (map_eq_error_iff.1 h) he
    · exact absurd he (fault_ne_of_read h)
  | case2 cs interior hg inner hi =>
    cases h
    cases he
  | case3 cs interior hg inner hi hs =>
    rw [← ht] at hc hg
    rw [nesting_group hc hg, if_pos hs, Nat.lt_succ_iff, ← nesting_congr (trim_trim interior)]
    exact hnested inner e h he
  | case4 cs interior hg inner hi hs ih =>
    rw [← ht] at hc hg
    rw [nesting_group hc hg, if_neg hs, ← nesting_congr (trim_trim interior)]
    exact ih (trim_trim interior) (Option.not_isSome_iff_eq_none.1 hs) h

theorem lt_nesting_of_readTerm {cs : List Char} {e : FilterError}
    (hc : Connective.first? (trim cs) = none) (h : readTerm nested cs = .error e)
    (he : e.fault = .nestedTooDeeply) : levels < nesting cs := by
  rw [← nesting_congr (trim_trim cs)]
  exact lt_nesting_of_readPart hnested (trim_trim cs) hc h he

theorem lt_nesting_of_readChain {terms : List (Filter × Connective)} {cs : List Char}
    {e : FilterError} (ht : trim cs = cs) (h : readChain nested terms cs = .error e)
    (he : e.fault = .nestedTooDeeply) : levels < nesting cs := by
  fun_induction readChain nested terms cs with
  | case1 terms cs hc =>
    rw [← ht] at hc
    exact lt_nesting_of_readTerm hnested hc (map_eq_error_iff.1 h) he
  | case2 terms cs i w hc left right hb =>
    cases h
    cases he
  | case3 terms cs i w hc left right hb e' hl =>
    have hlt := lt_nesting_of_readTerm hnested
      (Connective.first?_trim_take (trimmed_of_trim_eq ht) hc) hl (Except.error.inj h ▸ he)
    rw [← ht] at hc
    rw [nesting_chain hc, ht]
    exact Nat.lt_of_lt_of_le hlt (Nat.le_max_left _ _)
  | case4 terms cs i w hc left right hb term hl ih =>
    have hlt := ih (trim_trim right) h
    rw [← ht] at hc
    rw [nesting_chain hc, ht]
    rw [nesting_congr (trim_trim right)] at hlt
    exact Nat.lt_of_lt_of_le hlt (Nat.le_max_right _ _)

end Depth

theorem le_nesting_of_readExpression (levels : Nat) :
    DeepBeyond (readExpression levels) levels := by
  induction levels with
  | zero =>
    intro cs e _ _
    exact Nat.zero_le _
  | succ levels ih =>
    intro cs e h he
    unfold readExpression at h
    simp only at h
    split at h
    · cases h
      cases he
    · rw [← nesting_congr (trim_trim cs)]
      exact lt_nesting_of_readChain ih (trim_trim cs) h he

/-- A text that is nested within the limit is not refused for its depth. -/
theorem fault_ne_of_nesting_lt {text : String} (hn : nesting text.toList < nestingLimit)
    {e : FilterError} (h : parse text = .error e) : e.fault ≠ .nestedTooDeeply := by
  intro he
  unfold parse at h
  simp only at h
  split at h
  · cases h
    cases he
  · split at h
    · rename_i fault hf
      cases h
      cases he
      exact fault?_ne_nestedTooDeeply _ _ hf
    · obtain ⟨e', he', rfl⟩ := mapError_eq_error_iff.1 h
      have hfault : e'.fault = .nestedTooDeeply := by
        unfold nameWhole at he
        split at he
        · assumption
        · exact he
      have := le_nesting_of_readExpression nestingLimit text.toList e' he' hfault
      omega

/-- **The reader reads the grammar.** A text is accepted with a filter exactly when it is balanced,
reads as that filter and is nested within the limit; every other text is refused, and a text within
the limit for another reason than its depth. -/
theorem parse_reads_grammar (text : String) :
    (∀ f, parse text = .ok f ↔
      Balanced text.toList ∧ Reads text.toList f ∧ nesting text.toList < nestingLimit) ∧
    ((¬ ∃ f, Balanced text.toList ∧ Reads text.toList f ∧ nesting text.toList < nestingLimit) →
      ∃ e, parse text = .error e ∧
        (nesting text.toList < nestingLimit → e.fault ≠ .nestedTooDeeply)) := by
  refine ⟨fun f => parse_eq_ok_iff, fun h => ?_⟩
  cases hp : parse text with
  | ok f => exact absurd ⟨f, parse_eq_ok_iff.1 hp⟩ h
  | error e => exact ⟨e, rfl, fun hn => fault_ne_of_nesting_lt hn hp⟩

end Filter

end ScimBridge
