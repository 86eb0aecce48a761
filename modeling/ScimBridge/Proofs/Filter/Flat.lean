import ScimBridge.Proofs.Filter.Operands
import ScimBridge.Proofs.Filter.Pieces

/-!
# Long flat filters

The nesting of a filter counts negations and groups that hold a connective. So a chain of tests of
any length is within the limit, whatever redundant parentheses stand around the tests and around the
whole; it reads as the chain that leans to the right and is rendered in full
(`flat_filter_accepted`).

1. `passed_of_read`: the search for connectives passes over a comparison whose value is a keyword, a
   number or a string.
2. `operand_of_isTest`: what is accepted as a test is an operand of depth zero, in parentheses, too.
3. `Chain.reads`, `Chain.nesting_eq`: by induction along the chain, which gains a term and no level
   with each connective.
-/

namespace ScimBridge

/-- A value that spells a keyword in any letter case, a number or a string. -/
def Literal.IsSpelled (value : String) : Prop :=
  lowered value ∈ keywords ∨ isNumber value.toList = true ∨ isString value.toList = true

instance : DecidablePred Literal.IsSpelled := fun value =>
  inferInstanceAs (Decidable (lowered value ∈ Literal.keywords ∨ _ ∨ _))

/-! ## What the search passes over -/

namespace Connective

/-- The operators and the keywords are tokens in any letter case. -/
theorem isToken_of_lowerText {cs : List Char} {s : String}
    (hs : s ∈ Filter.presenceOperator :: (Filter.comparisonOperators ++ Literal.keywords))
    (h : lowerText cs = s.toList) : isToken cs = true := by
  have hall : (Filter.presenceOperator :: (Filter.comparisonOperators ++ Literal.keywords)).all
      (fun s => s.toList.all fun c => isLatinLetter c && c.toLower == c) = true := by decide
  have hs' := List.all_eq_true.1 (List.all_eq_true.1 hall s hs)
  simp only [Bool.and_eq_true, beq_iff_eq] at hs'
  obtain ⟨hI, hcs⟩ := letters_of_lowerText h fun c hc => (hs' c hc).1
  obtain ⟨⟨c, rest, he, ha, ho⟩, -⟩ := isToken_iff.1 (isToken_word s hs)
  rw [(hs' c (he ▸ List.mem_cons_self)).2] at ha ho
  refine isToken_iff.2 ⟨?_, fun d hd => ⟨fun hd' => hI (hd' ▸ hd), ?_⟩⟩
  · cases cs with
    | nil => cases h.trans he
    | cons d cs =>
      rw [he, lowerText_cons fun hd => hI (hd ▸ List.mem_cons_self)] at h
      have hd : d.toLower = c := (List.cons.inj h).1
      exact ⟨d, cs, rfl, hd ▸ ha, hd ▸ ho⟩
  · exact isPlain_iff.2 (plain_of_letters hcs d hd)

theorem passed_value (before : Option Char) {value : String} (ht : Trimmed value.toList)
    (hI : 'İ' ∉ value.toList) (h : Literal.IsSpelled value) : Passed before value.toList := by
  rcases h with hk | hn | hs
  · refine passed_token before (isToken_of_lowerText (s := lowered value) ?_ ?_)
    · simp [hk]
    · exact String.toList_ofList.symm
  · exact passed_token before (isToken_of_isNumber ((Literal.isNumber_iff ht).1 hn))
  · obtain ⟨b, hb, he | he⟩ := Literal.isString_iff.1 hs
    · rw [he] at hI ⊢
      exact passed_enclosed before hb hI
    · exact absurd he (Literal.ne_append_newline ht _)

end Connective

namespace Filter

open Connective (Between Passed spaced)

/-- A path, blanks and an operator are passed over. -/
theorem passed_head {path gap op : List Char} (hpath : Comparison.IsPath path)
    (hgap : Comparison.IsGap gap) {s : String}
    (hs : s ∈ presenceOperator :: comparisonOperators) (hop : lowered (String.ofList op) = s)
    (hI : 'İ' ∉ path) : Passed none (path ++ gap ++ op) := by
  have hlower : lowerText op = s.toList := by
    rw [← hop, lowered, String.toList_ofList, String.toList_ofList]
  have hmem : s ∈ presenceOperator :: (comparisonOperators ++ Literal.keywords) := by
    rcases List.mem_cons.1 hs with rfl | hs
    · exact List.mem_cons_self
    · exact List.mem_cons_of_mem _ (List.mem_append_left _ hs)
  refine ((Connective.passed_word rfl hI (isPlain_of_isPath hpath)).append ?_).append ?_
  · exact Connective.passed_blanks _ hgap.2
  · exact Connective.passed_token _ (Connective.isToken_of_lowerText hmem hlower)

/-- A comparison is passed over if its value shows where it ends. -/
theorem passed_of_read {cs : List Char} {f : Filter} (ht : Trimmed cs) (hI : 'İ' ∉ cs)
    (h : Comparison.read cs = .ok f) (hv : ∀ v ∈ f.values, Literal.IsSpelled v.2) :
    Passed none cs := by
  have hwf := Comparison.wellFormed_of_read ht h
  obtain ⟨p, hp, hf⟩ := Comparison.read_eq_ok_iff.1 h
  rcases Comparison.Parts.filter_eq_ok_iff.1 hf with ⟨hop, hnil, rfl⟩ | ⟨hop, hne, -, rfl⟩
  · cases hp with
    | bare hpath hgap hword =>
      simp only [List.mem_append, not_or] at hI
      exact passed_head hpath hgap List.mem_cons_self hop hI.1.1
    | valued _ _ _ _ hne => exact absurd hnil hne
  · cases hp with
    | bare => exact absurd rfl hne
    | @valued path gap op gap' value hpath hgap hword hgap' =>
      simp only [List.mem_append, not_or] at hI
      have hhead := passed_head hpath hgap (List.mem_cons_of_mem _ hop) rfl hI.1.1.1.1
      have hspelled : Literal.IsSpelled (String.ofList value) :=
        hv (String.ofList path, String.ofList value) (List.mem_singleton_self _)
      have hvalue (before : Option Char) : Passed before value := by
        have hpassed := Connective.passed_value before hwf.2.2.2.1
          (by rw [String.toList_ofList]; exact hI.2) hspelled
        rwa [String.toList_ofList] at hpassed
      exact (hhead.append (Connective.passed_blanks _ hgap'.2)).append (hvalue _)

/-! ## Accepted tests -/

/-- Whether a filter is one presence test or one comparison. -/
def isTest : Filter → Bool
  | .present _ => true
  | .compare _ _ _ => true
  | _ => false

theorem isTest_join (w : Connective) (l r : Filter) : (w.join l r).isTest = false := by
  cases w <;> rfl

section Test

variable {cs : List Char} {f : Filter} (h : Reads cs f) (hf : f.isTest = true)

include h hf

theorem first?_of_isTest : Connective.first? (trim cs) = none := by
  cases h with
  | chain => cases (isTest_join _ _ _).symm.trans hf
  | group hc | negation hc | comparison hc => exact hc

/-- What reads as a test is not nested, with any parentheses around it. -/
theorem nesting_of_isTest : nesting cs = 0 := by
  induction h with
  | chain => cases (isTest_join _ _ _).symm.trans hf
  | group hc hg hi ih =>
    rw [nesting_group hc hg, ih hf, first?_of_isTest hi hf]
    rfl
  | negation => cases hf
  | comparison hc hg hn => exact nesting_comparison hc hg hn

/-- A balanced text that reads as a test is an operand without the blanks around it, if the value
of the test shows where it ends. -/
theorem operand_of_isTest (hb : Balanced cs) (hI : 'İ' ∉ cs)
    (hv : ∀ v ∈ f.values, Literal.IsSpelled v.2) : Operand (trim cs) f 0 := by
  have htI : 'İ' ∉ trim cs := fun hmem => hI (mem_of_mem_trim hmem)
  refine ⟨?_, trimmed_trim cs, reads_trim_iff.2 h, ?_⟩
  · cases h with
    | chain => cases (isTest_join _ _ _).symm.trans hf
    | negation => cases hf
    | @group _ inner _ _ hg =>
      have he := eq_of_groupInterior? hg
      have hinner : 'İ' ∉ inner := fun hmem => htI (by rw [he]; simp [hmem])
      rw [he]
      exact Connective.passed_bracketed none (hb.trim.interior hg) hinner
    | comparison _ _ _ hread => exact passed_of_read (trimmed_trim cs) htI hread hv
  · rw [nesting_congr (trim_trim cs)]
    exact nesting_of_isTest h hf

end Test

/-! ## Redundant parentheses -/

/-- A text in pairs of parentheses, the innermost first, with blanks on their inside. -/
def wrapped : List (Blanks × Blanks) → String → String
  | [], s => s
  | p :: parens, s => wrapped parens (grouped p.1 s p.2)

section Wrapped

variable {s : String} (hb : Balanced s.toList)

include hb

theorem balanced_wrapped (parens : List (Blanks × Blanks)) :
    Balanced (wrapped parens s).toList := by
  induction parens generalizing s with
  | nil => exact hb
  | cons p parens ih =>
    refine ih ?_
    rw [toList_grouped]
    exact balanced_bracketed (balanced_pad p.1 hb p.2)

theorem reads_wrapped (parens : List (Blanks × Blanks)) {f : Filter} (h : Reads s.toList f) :
    Reads (wrapped parens s).toList f := by
  induction parens generalizing s with
  | nil => exact h
  | cons p parens ih =>
    have hpad := balanced_pad p.1 hb p.2
    refine ih ?_ ?_ <;> rw [toList_grouped]
    · exact balanced_bracketed hpad
    · exact (reads_bracketed hpad).2 ((reads_pad p.1.2 p.2.2 _).2 h)

/-- Only the innermost pair can be a level, and only around a connective. -/
theorem nesting_wrapped_le (parens : List (Blanks × Blanks)) :
    nesting (wrapped parens s).toList ≤
      nesting s.toList + if (Connective.first? (trim s.toList)).isSome then 1 else 0 := by
  induction parens generalizing s with
  | nil => exact Nat.le_add_right _ _
  | cons p parens ih =>
    have hpad := balanced_pad p.1 hb p.2
    have hle := ih (s := grouped p.1 s p.2) (by
      rw [toList_grouped]
      exact balanced_bracketed hpad)
    have hfirst : Connective.first? (bracketed (p.1.1.toList ++ s.toList ++ p.2.1.toList)) = none :=
      Connective.search?_bracketed hpad none _
    rw [toList_grouped, trim_bracketed, hfirst, nesting_bracketed hpad,
      nesting_pad p.1.2 p.2.2, trim_pad p.1.2 p.2.2] at hle
    exact hle

end Wrapped

/-- A text in parentheses begins and ends with one. -/
theorem exists_bracketed {parens : List (Blanks × Blanks)} (h : parens ≠ []) (s : String) :
    ∃ cs, (wrapped parens s).toList = bracketed cs := by
  induction parens generalizing s with
  | nil => exact absurd rfl h
  | cons p parens ih =>
    cases parens with
    | nil => exact ⟨_, toList_grouped p.1 s p.2⟩
    | cons q parens => exact ih (by simp) _

theorem not_mem_wrapped (parens : List (Blanks × Blanks)) {s : String} (hI : 'İ' ∉ s.toList) :
    'İ' ∉ (wrapped parens s).toList := by
  induction parens generalizing s with
  | nil => exact hI
  | cons p parens ih =>
    refine ih ?_
    rw [toList_grouped]
    simpa [bracketed] using not_mem_inner hI p.1 p.2

/-! ## Flat filters -/

/-- An accepted text of one test, without dotted capitals, whose value shows where it ends. -/
structure AcceptedTest where
  text : String
  filter : Filter
  accepted : parse text = .ok filter
  isTest : filter.isTest = true
  plain : 'İ' ∉ text.toList
  spelled : ∀ v ∈ filter.values, Literal.IsSpelled v.2

/-- A test in redundant parentheses. -/
structure Term where
  parens : List (Blanks × Blanks)
  test : AcceptedTest

/-- The text of a term. -/
def Term.text (t : Term) : String := wrapped t.parens t.test.text

/-- A connective in any letter case between two terms, with blanks around it that may be missing
beside a parenthesis. -/
structure Joint (left right : Term) where
  word : Connective
  before : Blanks
  keyword : Spelling word.word
  after : Blanks
  behind : before.1 ≠ "" ∨ left.parens ≠ []
  ahead : after.1 ≠ "" ∨ right.parens ≠ []

/-- A chain that begins with a term: one term, or a term and a connective in front of a chain. -/
inductive Chain : Term → Type
  | last (t : Term) : Chain t
  | more {t next : Term} (j : Joint t next) (rest : Chain next) : Chain t

namespace Chain

/-- The text of a chain. -/
def text : {t : Term} → Chain t → String
  | _, last t => t.text
  | t, more j rest => t.text ++ (j.before.1 ++ (j.keyword.1 ++ (j.after.1 ++ rest.text)))

/-- The filter that leans to the right. -/
def tree : {t : Term} → Chain t → Filter
  | _, last t => t.test.filter
  | t, more j rest => j.word.join t.test.filter rest.tree

/-- The chain in the backend's query language. -/
def query (table : PathTable) : {t : Term} → Chain t → String
  | _, last t => t.test.filter.queryText table
  | t, more j rest =>
    "(" ++ t.test.filter.queryText table ++ " " ++ j.word.text ++ " " ++ rest.query table ++ ")"

end Chain

theorem queryText_join (table : PathTable) (w : Connective) (l r : Filter) :
    (w.join l r).queryText table =
      "(" ++ l.queryText table ++ " " ++ w.text ++ " " ++ r.queryText table ++ ")" := by
  apply String.toList_injective
  cases w <;> simp [Connective.join, Connective.text, Connective.word, queryText]

namespace Term

theorem balanced (t : Term) : Balanced t.text.toList :=
  balanced_wrapped (parse_eq_ok_iff.1 t.test.accepted).1 t.parens

theorem operand (t : Term) : Operand (trim t.text.toList) t.test.filter 0 := by
  obtain ⟨hb, hr, -⟩ := parse_eq_ok_iff.1 t.test.accepted
  exact operand_of_isTest (reads_wrapped hb t.parens hr) t.test.isTest t.balanced
    (not_mem_wrapped t.parens t.test.plain) t.test.spelled

theorem reads (t : Term) : Reads t.text.toList t.test.filter := reads_trim_iff.1 t.operand.reads

theorem nesting_eq (t : Term) : nesting t.text.toList = 0 :=
  (nesting_congr (trim_trim _)).symm.trans t.operand.nesting_eq

end Term

namespace Chain

theorem queryText_tree (table : PathTable) {t : Term} (c : Chain t) :
    c.tree.queryText table = c.query table := by
  induction c with
  | last => rfl
  | more j rest ih => rw [tree, query, queryText_join, ih]

/-- A chain of which the first term is in parentheses begins with one. -/
theorem head?_of_parens {t : Term} (c : Chain t) (h : t.parens ≠ []) :
    c.text.toList.head? = some '(' := by
  obtain ⟨cs, hcs⟩ := exists_bracketed h t.test.text
  have ht : t.text.toList = bracketed cs := hcs
  cases c with
  | last => simp [text, ht, bracketed]
  | more j rest => simp [text, ht, bracketed]

theorem between {t next : Term} (j : Joint t next) (rest : Chain next) :
    Between j.word t.text.toList j.before.1.toList j.keyword.1.toList j.after.1.toList
      rest.text.toList := by
  refine .of_blanks j.before.2 j.keyword.2 j.after.2 (fun hnil => ?_) fun hnil => ?_
  · have hparens := j.behind.resolve_left (not_not.2 (String.toList_eq_nil_iff.1 hnil))
    obtain ⟨cs, hcs⟩ := exists_bracketed hparens t.test.text
    exact (congrArg List.getLast? hcs).trans (getLast?_bracketed cs)
  · exact rest.head?_of_parens
      (j.ahead.resolve_left (not_not.2 (String.toList_eq_nil_iff.1 hnil)))

theorem toList_text {t next : Term} (j : Joint t next) (rest : Chain next) :
    (more j rest).text.toList =
      spaced t.text.toList j.before.1.toList j.keyword.1.toList j.after.1.toList
        rest.text.toList := by
  simp [text, spaced]

theorem balanced {t : Term} (c : Chain t) : Balanced c.text.toList := by
  induction c with
  | last t => exact t.balanced
  | @more t _ j rest ih =>
    rw [toList_text]
    exact Connective.balanced_spaced (between j rest) t.balanced ih

theorem reads {t : Term} (c : Chain t) : Reads c.text.toList c.tree := by
  induction c with
  | last t => exact t.reads
  | @more t _ j rest ih =>
    rw [toList_text]
    exact reads_spaced (between j rest) t.operand.passed t.reads ih

/-- A chain is not nested, however long it is. -/
theorem nesting_eq {t : Term} (c : Chain t) : nesting c.text.toList = 0 := by
  induction c with
  | last t => exact t.nesting_eq
  | @more t _ j rest ih =>
    rw [toList_text, nesting_spaced (between j rest) t.operand.passed t.reads.trim_ne_nil
      rest.reads.trim_ne_nil, t.nesting_eq, ih]
    rfl

end Chain

/-- **Long flat filters are never nested too deeply.** Accepted tests around connectives, each in
any number of redundant parentheses and all of them in any number, are accepted as the filter that
leans to the right, and every one of them is rendered. -/
theorem flat_filter_accepted (table : PathTable) (parens : List (Blanks × Blanks)) {first : Term}
    (c : Chain first) :
    parse (wrapped parens c.text) = .ok c.tree ∧
    translate table (some (wrapped parens c.text)) = .ok (c.query table) := by
  have hlimit : nesting (wrapped parens c.text).toList < nestingLimit := by
    have hle := nesting_wrapped_le c.balanced parens
    rw [c.nesting_eq, Nat.zero_add] at hle
    refine Nat.lt_of_le_of_lt hle ?_
    split <;> decide
  have hparse : parse (wrapped parens c.text) = .ok c.tree :=
    parse_eq_ok_iff.2 ⟨balanced_wrapped c.balanced parens,
      reads_wrapped c.balanced parens c.reads, hlimit⟩
  refine ⟨hparse, ?_⟩
  rw [translate_of_parse table hparse, c.queryText_tree]

/-- A string that holds parentheses and a connective, a keyword in capitals and a test in two pairs
of parentheses behind a connective, all in another pair. -/
theorem flat_filter_of_three :
    parse "(a eq \"x) or (y\" and b ne TRUE OR(( c pr) ))" =
      .ok (.and (.compare "a" "eq" "\"x) or (y\"") (.or (.compare "b" "ne" "TRUE") (.present "c"))) ∧
    translate [] (some "(a eq \"x) or (y\" and b ne TRUE OR(( c pr) ))") =
      .ok "(a eq \"x) or (y\" and (b ne true or c pr))" := by
  have ha : parse "a eq \"x) or (y\"" = .ok (.compare "a" "eq" "\"x) or (y\"") :=
    eq_ok_of_toOption (by decide +kernel)
  have hb : parse "b ne TRUE" = .ok (.compare "b" "ne" "TRUE") :=
    eq_ok_of_toOption (by decide +kernel)
  have hc : parse " c pr" = .ok (.present "c") := eq_ok_of_toOption (by decide +kernel)
  let none : Blanks := ⟨"", by decide⟩
  let space : Blanks := ⟨" ", by decide⟩
  let a : Term := ⟨[], ⟨_, _, ha, rfl, by decide, by decide⟩⟩
  let b : Term := ⟨[], ⟨_, _, hb, rfl, by decide, by decide⟩⟩
  let c : Term := ⟨[(none, none), (none, space)], ⟨_, _, hc, rfl, by decide, by decide⟩⟩
  let j : Joint a b := ⟨.and, space, ⟨"and", by decide⟩, space, .inl (by decide), .inl (by decide)⟩
  let k : Joint b c := ⟨.or, space, ⟨"OR", by decide⟩, none, .inl (by decide),
    .inr (List.cons_ne_nil _ _)⟩
  exact flat_filter_accepted [] [(none, none)] (.more j (.more k (.last c)))

end Filter

end ScimBridge
