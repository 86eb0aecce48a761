import ScimBridge.Proofs.Filter.Depth
import ScimBridge.Proofs.Filter.Operands

/-!
# Reading a rendered filter again

A filter without negations is rendered, with no names to replace, to a text that reads as the filter
with its values as literals, so to translate it once more changes nothing (`rereading`). Each
connective brings its own parentheses, though, and so a level of nesting that the filter need not
have had: a long chain is accepted, and what it is rendered to is refused (`refused_of_chain`).

1. `operand_of_query`: without negations, what reads as a query reads as the same filter. By
   induction on the reading of the query.
2. `Reads.legible`: what is read from a text without dotted capitals can be written again.
3. `queryText_forBackend`: literals are their own literals.
-/

namespace ScimBridge

namespace Filter

open Connective (linked)

/-- Whether a filter holds no negation. -/
def isPositive : Filter → Bool
  | .present _ => true
  | .compare _ _ _ => true
  | .not _ => false
  | .and l r => l.isPositive && r.isPositive
  | .or l r => l.isPositive && r.isPositive

/-- How many connectives of a filter stand inside one another. -/
def height : Filter → Nat
  | .present _ => 0
  | .compare _ _ _ => 0
  | .not inner => inner.height
  | .and l r => max l.height r.height + 1
  | .or l r => max l.height r.height + 1

/-! ## From queries to filters -/

/-- A legible query reads as the same filter, and each of its chains is one level of nesting. -/
theorem operand_of_query {cs : List Char} {f : Filter} (h : Query.Reads cs f) (hf : f.Legible) :
    Operand cs f f.height := by
  induction h with
  | @test cs f ht =>
    have hheight : f.height = 0 := by cases ht <;> rfl
    rw [hheight]
    exact operand_of_test ht hf
  | @chain l r f g w _ _ ihl ihr =>
    have hsides : f.Legible ∧ g.Legible := by cases w <;> exact hf
    have hheight : (w.join f g).height = max f.height g.height + 1 := by cases w <;> rfl
    have := operand_linked (ihl hsides.1) (ihr hsides.2) w
    rw [hheight]
    simpa [bracketed, linked] using this
  | group | chained => exact hf.elim

/-! ## What can be written again -/

/-- A path in front of a blank and something else is not the word of a negation if no negation is
found there. -/
theorem ne_not_of_negated? {path gap rest : List Char} (hgap : Comparison.IsGap gap)
    (hrest : ∀ c, rest.head? = some c → isBlank c = false)
    (h : negated? (path ++ (gap ++ rest)) = none) : lowerText path ≠ ['n', 'o', 't'] := by
  intro hkw
  have hsome : negated? (path ++ (gap ++ rest)) = some rest :=
    negated?_eq_some_iff.2 ⟨path, gap, rfl, hkw, hgap.2, hrest, fun h => absurd h hgap.1⟩
  cases h.symm.trans hsome

theorem legible_of_read {cs : List Char} {f : Filter} (hI : 'İ' ∉ cs) (hn : negated? cs = none)
    (h : Comparison.read cs = .ok f) : f.Legible := by
  obtain ⟨p, hp, hf⟩ := Comparison.read_eq_ok_iff.1 h
  have hsubject : IsSubject p.path ∧ 'İ' ∉ p.value := by
    cases hp with
    | @bare path gap op hpath hgap hop =>
      rw [List.append_assoc] at hn
      simp only [List.mem_append, not_or] at hI
      exact ⟨⟨hpath, ne_not_of_negated? hgap hop.head_not_blank hn, hI.1.1⟩, List.not_mem_nil⟩
    | @valued path gap op gap' value hpath hgap hop =>
      simp only [List.append_assoc] at hn
      simp only [List.mem_append, not_or] at hI
      refine ⟨⟨hpath, ne_not_of_negated? hgap (fun c hc => ?_) hn, hI.1.1.1.1⟩, hI.2⟩
      rw [List.head?_append_of_ne_nil _ hop.1] at hc
      exact hop.head_not_blank c hc
  rcases Comparison.Parts.filter_eq_ok_iff.1 hf with ⟨-, -, rfl⟩ | ⟨-, -, -, rfl⟩
  · show IsSubject (String.ofList p.path).toList
    rw [String.toList_ofList]
    exact hsubject.1
  · show IsSubject (String.ofList p.path).toList ∧ 'İ' ∉ (String.ofList p.value).toList
    rw [String.toList_ofList, String.toList_ofList]
    exact hsubject

/-- What a text without dotted capitals reads as is legible if it holds no negation. -/
theorem Reads.legible {cs : List Char} {f : Filter} (h : Reads cs f) (hI : 'İ' ∉ cs)
    (hp : f.isPositive = true) : f.Legible := by
  induction h with
  | @chain cs i w l r _ _ _ ihl ihr =>
    have hsides : l.isPositive = true ∧ r.isPositive = true := by
      cases w <;> exact Bool.and_eq_true_iff.1 hp
    have hleft := ihl (fun hm => hI (mem_of_mem_trim (List.mem_of_mem_take hm))) hsides.1
    have hright := ihr (fun hm => hI (mem_of_mem_trim (List.mem_of_mem_drop hm))) hsides.2
    cases w <;> exact ⟨hleft, hright⟩
  | @group cs inner f _ hg _ ih =>
    refine ih (fun hm => hI (mem_of_mem_trim ?_)) hp
    rw [eq_of_groupInterior? hg]
    simp [hm]
  | negation => cases hp
  | comparison _ _ hn hr => exact legible_of_read (fun hm => hI (mem_of_mem_trim hm)) hn hr

/-! ## Literals in the place of values -/

theorem Legible.forBackend {f : Filter} (h : f.Legible) : (f.forBackend []).Legible := by
  induction f with
  | present path => exact h
  | compare path op value => exact ⟨h.1, Literal.not_mem_ofValue path h.2⟩
  | not inner => exact h.elim
  | and l r ihl ihr | or l r ihl ihr => exact ⟨ihl h.1, ihr h.2⟩

theorem height_forBackend (table : PathTable) (f : Filter) :
    (f.forBackend table).height = f.height := by
  induction f with
  | present | compare => rfl
  | not inner ih => exact ih
  | and l r ihl ihr | or l r ihl ihr => simp only [Filter.forBackend, height, ihl, ihr]

/-- With literals for its values a filter has the text that it has without them. -/
theorem queryText_forBackend {f : Filter} (h : f.WellFormed) :
    (f.forBackend []).queryText [] = f.queryText [] := by
  induction f with
  | present path => rfl
  | compare path op value =>
    have hvalue := Literal.ofValue_ofValue path h.2.2.2.1
    show path ++ " " ++ op ++ " " ++ Literal.ofValue path (Literal.ofValue path value) = _
    rw [hvalue]
    rfl
  | not inner ih => simp only [Filter.forBackend, queryText, isChain_forBackend, ih h]
  | and l r ihl ihr | or l r ihl ihr =>
    simp only [Filter.forBackend, queryText, ihl h.1, ihr h.2]

/-! ## The second reading -/

/-- What a legible filter is rendered to is an operand that reads as the filter with its values as
literals. -/
theorem operand_render {f : Filter} (hw : f.WellFormed) (hf : f.Legible) :
    Operand (render [] f).toList (f.forBackend []) f.height := by
  have hquery := @reads_queryText [] (fun path name h => by cases h) f hw
  rw [render_eq, ← height_forBackend []]
  exact operand_of_query hquery hf.forBackend

theorem translate_of_error (table : PathTable) {text : String} {e : FilterError}
    (hblank : ¬ allBlank text.toList = true) (h : parse text = .error e) :
    translate table (some text) = .error e := by
  unfold translate
  simp only [if_neg hblank, h]
  rfl

section Rendered

variable {f : Filter} (hw : f.WellFormed) (hf : f.Legible)

include hw hf

/-- Up to the limit of nesting a rendered filter is accepted and translated to itself. -/
theorem accepted_of_height (h : f.height < nestingLimit) :
    parse (render [] f) = .ok (f.forBackend []) ∧
      translate [] (some (render [] f)) = .ok (render [] f) := by
  have ho := operand_render hw hf
  have hparse := (parse_of_reads ho.passed.balanced ho.reads).1 (ho.nesting_eq.trans_lt h)
  refine ⟨hparse, ?_⟩
  rw [translate_of_parse [] hparse, queryText_forBackend hw, render_eq]

/-- From the limit of nesting on a rendered filter is refused for its depth. -/
theorem refused_of_height (h : nestingLimit ≤ f.height) :
    parse (render [] f) = .error (tooDeep (render [] f)) ∧
      translate [] (some (render [] f)) = .error (tooDeep (render [] f)) := by
  have ho := operand_render hw hf
  have hparse := (parse_of_reads ho.passed.balanced ho.reads).2 (ho.nesting_eq.symm ▸ h)
  exact ⟨hparse, translate_of_error [] ho.reads.not_allBlank hparse⟩

end Rendered

/-- **To translate twice is to translate once.** A filter without negations and dotted capitals is
translated, with no names to replace, to a text that is read as the filter with its values as
literals and translated to itself, as long as its connectives stand less deeply inside one another
than the limit of nesting; any other such text is refused for its depth. -/
theorem rereading {text : String} {n : Filter} (hI : 'İ' ∉ text.toList) (h : parse text = .ok n)
    (hn : n.isPositive = true) :
    translate [] (some text) = .ok (render [] n) ∧
    (n.height < nestingLimit →
      parse (render [] n) = .ok (n.forBackend []) ∧
        translate [] (some (render [] n)) = .ok (render [] n)) ∧
    (nestingLimit ≤ n.height →
      parse (render [] n) = .error (tooDeep (render [] n)) ∧
        translate [] (some (render [] n)) = .error (tooDeep (render [] n))) := by
  have hreads := (parse_eq_ok_iff.1 h).2.1
  have hlegible := hreads.legible hI hn
  refine ⟨?_, accepted_of_height hreads.wellFormed hlegible,
    refused_of_height hreads.wellFormed hlegible⟩
  rw [render_eq]
  exact translate_of_parse [] h

/-- Paths that are words of connectives, a value that gets quotes, a status word, and a string that
holds a group. -/
theorem rereading_of_words :
    translate [] (some "(and eq Bob AND active EQ TRUE)or or eq \"x) and (y\"") =
      .ok "((and eq \"Bob\" and active eq \"active\") or or eq \"x) and (y\")" ∧
    parse "((and eq \"Bob\" and active eq \"active\") or or eq \"x) and (y\")" =
      .ok (.or (.and (.compare "and" "eq" "\"Bob\"") (.compare "active" "eq" "\"active\""))
        (.compare "or" "eq" "\"x) and (y\"")) ∧
    translate [] (some "((and eq \"Bob\" and active eq \"active\") or or eq \"x) and (y\")") =
      .ok "((and eq \"Bob\" and active eq \"active\") or or eq \"x) and (y\")" := by
  have h : parse "(and eq Bob AND active EQ TRUE)or or eq \"x) and (y\"" =
      .ok (.or (.and (.compare "and" "eq" "Bob") (.compare "active" "eq" "TRUE"))
        (.compare "or" "eq" "\"x) and (y\"")) :=
    eq_ok_of_toOption (by decide +kernel)
  have hrender : render [] (.or (.and (.compare "and" "eq" "Bob") (.compare "active" "eq" "TRUE"))
      (.compare "or" "eq" "\"x) and (y\"")) =
        "((and eq \"Bob\" and active eq \"active\") or or eq \"x) and (y\")" := by
    decide +kernel
  obtain ⟨hfirst, hread, -⟩ := rereading (by decide) h (by decide)
  rw [hrender] at hfirst hread
  exact ⟨hfirst, hread (by decide)⟩

/-! ## Long chains -/

/-- A chain of presence tests around a number of connectives. -/
def chainText : Nat → List Char
  | 0 => ['a', ' ', 'p', 'r']
  | k + 1 => linked .and ['a', ' ', 'p', 'r'] (chainText k)

/-- The filter that the chain reads as. -/
def chain : Nat → Filter
  | 0 => .present "a"
  | k + 1 => .and (.present "a") (chain k)

theorem height_chain (k : Nat) : (chain k).height = k := by
  induction k with
  | zero => rfl
  | succ k ih => simp [chain, height, ih]

theorem isPositive_chain (k : Nat) : (chain k).isPositive = true := by
  induction k with
  | zero => rfl
  | succ k ih => simp [chain, isPositive, ih]

theorem operand_link : Operand ['a', ' ', 'p', 'r'] (.present "a") 0 :=
  operand_of_test (@Query.Test.present ['a'] ⟨by decide, List.all_eq_true.1 (by decide)⟩)
    ⟨⟨'a', [], rfl, rfl, by simp⟩, by decide, by decide⟩

theorem not_mem_chainText (k : Nat) : 'İ' ∉ chainText k := by
  induction k with
  | zero => exact operand_link.passed.plain
  | succ k ih => exact Connective.not_mem_linked .and operand_link.passed.plain ih

theorem balanced_chainText (k : Nat) : Balanced (chainText k) := by
  induction k with
  | zero => exact operand_link.passed.balanced
  | succ k ih => exact Connective.balanced_linked .and operand_link.passed.balanced ih

/-- A chain is read term by term: however long it is, it is not nested. -/
theorem reads_chainText (k : Nat) :
    Reads (chainText k) (chain k) ∧ nesting (chainText k) = 0 := by
  have ho := operand_link
  induction k with
  | zero => exact ⟨ho.reads, ho.nesting_eq⟩
  | succ k ih =>
    obtain ⟨hr, hn⟩ := ih
    refine ⟨reads_linked ho.trimmed ho.reads hr ho.passed .and, ?_⟩
    rw [chainText, nesting_linked ho.trimmed ho.reads hr ho.passed, ho.nesting_eq, hn]
    rfl

/-- A chain is accepted, and from the limit of nesting on what it is rendered to is not. -/
theorem refused_of_chain {k : Nat} (hk : nestingLimit ≤ k) :
    parse (String.ofList (chainText k)) = .ok (chain k) ∧
      translate [] (some (String.ofList (chainText k))) = .ok (render [] (chain k)) ∧
      parse (render [] (chain k)) = .error (tooDeep (render [] (chain k))) ∧
      translate [] (some (render [] (chain k))) = .error (tooDeep (render [] (chain k))) := by
  obtain ⟨hr, hn⟩ := reads_chainText k
  have hparse : parse (String.ofList (chainText k)) = .ok (chain k) := by
    rw [parse_eq_ok_iff, String.toList_ofList, hn]
    exact ⟨balanced_chainText k, hr, by decide⟩
  have hlegible := hr.legible (not_mem_chainText k) (isPositive_chain k)
  refine ⟨hparse, ?_, refused_of_height hr.wellFormed hlegible (by rwa [height_chain])⟩
  rw [render_eq]
  exact translate_of_parse [] hparse

/-- A chain of 601 tests is translated to a text that is refused. -/
theorem long_chain_refused :
    'İ' ∉ (String.ofList (chainText 600)).toList ∧
    parse (String.ofList (chainText 600)) = .ok (chain 600) ∧ (chain 600).isPositive = true ∧
    parse (render [] (chain 600)) ≠ .ok ((chain 600).forBackend []) ∧
    translate [] (some (String.ofList (chainText 600))) = .ok (render [] (chain 600)) ∧
    translate [] (some (render [] (chain 600))) ≠ .ok (render [] (chain 600)) := by
  obtain ⟨hparse, htranslate, hrefused, hfails⟩ := refused_of_chain (k := 600) (by decide)
  refine ⟨?_, hparse, isPositive_chain 600, ?_, htranslate, ?_⟩
  · rw [String.toList_ofList]
    exact not_mem_chainText 600
  · rw [hrefused]
    exact fun h => nomatch h
  · rw [hfails]
    exact fun h => nomatch h

end Filter

end ScimBridge
