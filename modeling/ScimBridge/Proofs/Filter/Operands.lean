import ScimBridge.Proofs.Filter.Query
import ScimBridge.Proofs.Filter.Composition
import ScimBridge.Proofs.Filter.Replacement

/-!
# Operands

A text that can stand on the left of a connective (`Passed`) and reads as a filter is an operand.
Such are the tests of a query and two of them in parentheses around a connective.

1. `passed_token`, `passed_literal`: the parts of a test are passed over.
2. `operand_of_test`: a test is an operand of depth zero.
3. `operand_linked`: two operands in parentheses around a connective are one of a level more.
-/

namespace ScimBridge

namespace Connective

/-- Whether a text is a word that begins with the first letter of no connective. -/
def isToken (cs : List Char) : Bool :=
  (cs.head?.any fun c => c.toLower != 'a' && c.toLower != 'o') &&
    cs.all fun c => c != 'İ' && isPlain c

theorem isToken_iff {cs : List Char} :
    isToken cs = true ↔ (∃ c rest, cs = c :: rest ∧ c.toLower ≠ 'a' ∧ c.toLower ≠ 'o') ∧
      ∀ c ∈ cs, c ≠ 'İ' ∧ isPlain c = true := by
  cases cs <;> simp [isToken]

/-- A token is passed over behind a blank, too. -/
theorem passed_token (before : Option Char) {cs : List Char} (h : isToken cs = true) :
    Passed before cs := by
  obtain ⟨⟨c, rest, rfl, ha, ho⟩, hcs⟩ := isToken_iff.1 h
  have hI : 'İ' ∉ c :: rest := fun hI => (hcs _ hI).1 rfl
  have hplain : ∀ d ∈ c :: rest, isPlain d = true := fun d hd => (hcs d hd).2
  obtain ⟨hq, hopen, hs, hblank⟩ := isPlain_iff.1 (hplain c List.mem_cons_self)
  refine ⟨hI, balanced_of_isPlain hplain, fun ds => ⟨?_, ?_⟩⟩
  · refine Option.eq_none_iff_forall_ne_some.2 fun w hw => ?_
    obtain ⟨t, ht⟩ := (standsAt_iff.1 (here?_eq_some_iff.1 hw).2).1
    rw [List.cons_append, lowerText_cons fun h => hI (h ▸ List.mem_cons_self)] at ht
    cases w
    · exact ha (List.cons.inj ht).1.symm
    · exact ho (List.cons.inj ht).1.symm
  · rw [Cursor.start, Cursor.step_plain hq hopen hs]
    exact skipped_word (by simp [mayFollow, hblank, hs])
      (fun d hd => isPlain_iff.1 (hplain d (List.mem_cons_of_mem c hd))) _ _

/-- The operators and the keywords are tokens. -/
theorem isToken_word :
    ∀ s ∈ Filter.presenceOperator :: (Filter.comparisonOperators ++ Literal.keywords),
      isToken s.toList = true :=
  List.all_eq_true.1 (by decide)

theorem isPlain_of_isDecimal {c : Char} (h : isDecimal c = true) : c ≠ 'İ' ∧ isPlain c = true := by
  have hne (d : Char) (hd : isDecimal d = false) : c ≠ d := by
    rintro rfl
    cases h.symm.trans hd
  have hblank : isBlank c = false := by
    by_contra hb
    rw [Bool.not_eq_false] at hb
    cases h.symm.trans (eq_false_of_isBlank (p := isDecimal) (by decide +kernel) hb)
  exact ⟨hne _ (by decide +kernel), isPlain_iff.2 ⟨hne _ (by decide +kernel),
    hne _ (by decide +kernel), hne _ (by decide +kernel), hblank⟩⟩

theorem isToken_of_isNumber {n : List Char} (h : Literal.IsNumber n) : isToken n = true := by
  refine isToken_iff.2 ⟨?_, fun c hc => ?_⟩
  · obtain ⟨c, rest, rfl, hc⟩ := Literal.exists_cons_of_isNumber h
    have hletter : isLatinLetter c = false := by
      rcases hc with rfl | hc
      · decide
      · exact Literal.isLatinLetter_of_isDecimal hc
    refine ⟨c, rest, rfl, fun ha => ?_, fun ho => ?_⟩
    · cases (isLatinLetter_of_toLower (c := c) (ha ▸ by decide)).symm.trans hletter
    · cases (isLatinLetter_of_toLower (c := c) (ho ▸ by decide)).symm.trans hletter
  · rcases Literal.mem_isNumber h hc with hd | hc
    · exact isPlain_of_isDecimal hd
    · have hsigns : ['-', '+', '.', 'e', 'E'].all (fun c => c != 'İ' && isPlain c) = true := by
        decide
      simpa using List.all_eq_true.1 hsigns c hc

/-- A literal is a token or a string. -/
theorem isToken_or_string {cs : List Char} (h : Literal.IsLiteral cs) :
    isToken cs = true ∨ ∃ b, Literal.Content b ∧ cs = Literal.enclosed b := by
  rcases h with ⟨k, hk, rfl⟩ | hn | hs
  · exact .inl (isToken_word k (by simp [hk]))
  · exact .inl (isToken_of_isNumber hn)
  · exact .inr hs

theorem passed_enclosed (before : Option Char) {b : List Char} (hb : Literal.Content b)
    (hI : 'İ' ∉ Literal.enclosed b) : Passed before (Literal.enclosed b) := by
  have hbalanced : Balanced (Literal.enclosed b) := by
    have := Balanced.literal hb .nil
    rwa [List.append_nil] at this
  exact ⟨hI, hbalanced, fun ds => (sheltered_enclosed hb 0).skipped before ds _⟩

theorem passed_literal (before : Option Char) {cs : List Char} (h : Literal.IsLiteral cs)
    (hI : 'İ' ∉ cs) : Passed before cs := by
  rcases isToken_or_string h with ht | ⟨b, hb, rfl⟩
  · exact passed_token before ht
  · exact passed_enclosed before hb hI

/-! ## Single spaces around a connective -/

/-- Two sides and a connective with single spaces between them. -/
def linked (w : Connective) (cs ds : List Char) : List Char := cs ++ ' ' :: (w.word ++ ' ' :: ds)

theorem linked_eq (w : Connective) (cs ds : List Char) :
    linked w cs ds = spaced cs [' '] w.word [' '] ds := by
  simp [linked, spaced]

theorem between_spaces (w : Connective) (cs ds : List Char) :
    Between w cs [' '] w.word [' '] ds :=
  .of_blanks rfl (by cases w <;> decide) rfl (by simp) (by simp)

theorem balanced_linked (w : Connective) {cs ds : List Char} (hc : Balanced cs)
    (hd : Balanced ds) : Balanced (linked w cs ds) := by
  rw [linked_eq]
  exact balanced_spaced (between_spaces w cs ds) hc hd

theorem not_mem_linked (w : Connective) {cs ds : List Char} (hc : 'İ' ∉ cs) (hd : 'İ' ∉ ds) :
    'İ' ∉ linked w cs ds := by
  have hw : 'İ' ∉ w.word := by cases w <;> decide
  simp [linked, hc, hd, hw]

theorem first?_linked {cs : List Char} (h : Passed none cs) (w : Connective) (ds : List Char) :
    first? (linked w cs ds) = some (cs.length + 1, w) := by
  rw [linked_eq]
  exact first?_spaced (between_spaces w cs ds) h

end Connective

namespace Filter

open Connective (Between Passed isPlain isPlain_iff spaced linked)

section Linked

variable {l r : List Char} {f g : Filter} (htl : Trimmed l) (hf : Reads l f) (hg : Reads r g)

include htl hf hg

theorem trimmed_linked (htr : Trimmed r) (w : Connective) : Trimmed (linked w l r) := by
  rw [Connective.linked_eq]
  exact Connective.trimmed_spaced htl htr hf.ne_nil hg.ne_nil _ _ _

variable (hl : Passed none l)

include hl

theorem reads_linked (w : Connective) : Reads (linked w l r) (w.join f g) := by
  rw [Connective.linked_eq]
  exact reads_spaced (Connective.between_spaces w l r) ((trim_of_trimmed htl).symm ▸ hl) hf hg

theorem nesting_linked (w : Connective) :
    nesting (linked w l r) = max (nesting l) (nesting r) := by
  rw [Connective.linked_eq]
  exact nesting_spaced (Connective.between_spaces w l r) ((trim_of_trimmed htl).symm ▸ hl)
    hf.trim_ne_nil hg.trim_ne_nil

end Linked

/-! ## Operands -/

/-- A text that can stand on either side of a connective: what it reads as, and its nesting. -/
structure Operand (cs : List Char) (f : Filter) (depth : Nat) : Prop where
  passed : Passed none cs
  trimmed : Trimmed cs
  reads : Reads cs f
  nesting_eq : nesting cs = depth

/-! ## Tests -/

/-- A literal can stand as the value of a comparison. -/
theorem isValue_of_isLiteral {cs : List Char} (h : Literal.IsLiteral cs) :
    Comparison.IsValue cs := by
  rcases Connective.isToken_or_string h with ht | ⟨b, hb, rfl⟩
  · obtain ⟨⟨c, rest, rfl, -⟩, hcs⟩ := Connective.isToken_iff.1 ht
    have hplain := fun d hd => isPlain_iff.1 (hcs d hd).2
    refine ⟨List.cons_ne_nil c rest, ⟨fun d hd => ?_, fun d hd => ?_⟩, fun hq => ?_⟩
    · exact (hplain d (List.mem_of_head? hd)).2.2.2
    · exact (hplain d (List.mem_of_getLast? hd)).2.2.2
    · exact absurd rfl (hplain '"' (List.mem_of_head? hq)).1
  · exact ⟨List.cons_ne_nil _ _, trimmed_enclosed b, fun _ => isString_enclosed hb⟩

/-- A path neither ends a word nor begins a literal or a group. -/
theorem isPlain_of_isPath {path : List Char} (h : Comparison.IsPath path) :
    ∀ c ∈ path, isPlain c = true := by
  intro c hc
  have hchar := (Query.isName_of_isPath h).2 c hc
  have hne (d : Char) (hd : Comparison.isPathChar d = false) : c ≠ d := by
    rintro rfl
    cases hchar.symm.trans hd
  have hblank : isBlank c = false := by
    by_contra hb
    rw [Bool.not_eq_false] at hb
    cases hchar.symm.trans (Comparison.isPathChar_of_isBlank hb)
  exact isPlain_iff.2 ⟨hne _ (by decide), hne _ (by decide), hne _ (by decide), hblank⟩

/-- A path that a test can begin with: without the dotted capital, and not to be taken for a
negation. -/
structure IsSubject (path : List Char) : Prop where
  isPath : Comparison.IsPath path
  ne_not : lowerText path ≠ ['n', 'o', 't']
  plain : 'İ' ∉ path

namespace IsSubject

variable {path : List Char} (h : IsSubject path)

include h

theorem isPlain_of_mem : ∀ c ∈ path, isPlain c = true :=
  isPlain_of_isPath h.isPath

theorem groupInterior?_eq_none (rest : List Char) : groupInterior? (path ++ rest) = none := by
  obtain ⟨c, tail, rfl, -⟩ := h.isPath
  exact groupInterior?_of_ne (isPlain_iff.1 (h.isPlain_of_mem c List.mem_cons_self)).2.1 _

/-- Only the whole path could be the word of a negation. -/
theorem negated?_eq_none (rest : List Char) : negated? (path ++ ' ' :: rest) = none := by
  refine Option.eq_none_iff_forall_ne_some.2 fun tail htail => ?_
  obtain ⟨kw, gap, he, hkw, hgap, -, hopen⟩ := negated?_eq_some_iff.1 htail
  have hletters : ∀ c ∈ kw, Comparison.isPathChar c = true := fun c hc =>
    Comparison.isPathChar_of_isPathStart (by
      simp [Comparison.isPathStart, (letters_of_not hkw).2 c hc])
  have hends : ∀ c, (gap ++ tail).head? = some c → Comparison.isPathChar c = false := by
    intro c hc
    cases gap with
    | nil =>
      cases (hopen rfl).symm.trans hc
      decide
    | cons d gap =>
      cases hc
      exact Comparison.isPathChar_of_isBlank (allBlank_iff.1 hgap c List.mem_cons_self)
  obtain ⟨rfl, -⟩ := run_append_cancel (Query.isName_of_isPath h.isPath).2
    (Query.isPathChar_head_space _) hletters hends he
  exact h.ne_not hkw

/-- A path and what is passed over behind it are an operand of depth zero if they are read. -/
theorem operand {rest : List Char} {f : Filter}
    (hpassed : Passed (some ' ') rest) (hne : rest ≠ [])
    (hlast : ∀ c, rest.getLast? = some c → isBlank c = false)
    (hread : Comparison.read (path ++ ' ' :: rest) = .ok f) : Operand (path ++ ' ' :: rest) f 0 := by
  have hpath : Passed none path := Connective.passed_word rfl h.plain h.isPlain_of_mem
  have hspace : Passed (path.getLast?.or none) ([' '] ++ rest) :=
    (Connective.passed_blanks _ rfl).append hpassed
  have htrimmed : Trimmed (path ++ ' ' :: rest) := by
    obtain ⟨d, tail, rfl⟩ := List.exists_cons_of_ne_nil hne
    constructor
    · intro c hc
      obtain ⟨e, front, rfl, -⟩ := h.isPath
      cases hc
      exact (isPlain_iff.1 (h.isPlain_of_mem c List.mem_cons_self)).2.2.2
    · intro c hc
      rw [List.getLast?_append_of_ne_nil _ (List.cons_ne_nil _ _), List.getLast?_cons_cons] at hc
      exact hlast c hc
  have ht := trim_of_trimmed htrimmed
  have hc := (hpath.append hspace).first?_eq_none
  have hg := h.groupInterior?_eq_none (' ' :: rest)
  have hn := h.negated?_eq_none rest
  refine ⟨hpath.append hspace, htrimmed, ?_, ?_⟩
  · exact .comparison (ht.symm ▸ hc) (ht.symm ▸ hg) (ht.symm ▸ hn) (ht.symm ▸ hread)
  · exact nesting_comparison (ht.symm ▸ hc) (ht.symm ▸ hg) (ht.symm ▸ hn)

end IsSubject

/-- A filter without negations whose paths and values come through a second reading. -/
def Legible : Filter → Prop
  | .present path => IsSubject path.toList
  | .compare path _ value => IsSubject path.toList ∧ 'İ' ∉ value.toList
  | .not _ => False
  | .and l r => l.Legible ∧ r.Legible
  | .or l r => l.Legible ∧ r.Legible

theorem lowered_operator :
    ∀ op ∈ presenceOperator :: comparisonOperators, lowered op = op ∧
      Comparison.IsWord op.toList := by
  have hall : (presenceOperator :: comparisonOperators).all (fun op => lowered op == op &&
      (!op.toList.isEmpty && op.toList.all isLatinLetter)) = true := by decide
  intro op hop
  have hword := List.all_eq_true.1 hall op hop
  simp only [Bool.and_eq_true, beq_iff_eq, Bool.not_eq_true', List.isEmpty_eq_false_iff,
    List.all_eq_true] at hword
  exact hword

theorem isGap_space : Comparison.IsGap [' '] := ⟨by decide, rfl⟩

theorem read_present {path : List Char} (hpath : Comparison.IsPath path) :
    Comparison.read (path ++ ' ' :: ['p', 'r']) = .ok (.present (String.ofList path)) := by
  have hspelled := Comparison.Parts.Spelled.bare hpath isGap_space
    (lowered_operator presenceOperator (by decide)).2
  rw [List.append_assoc] at hspelled
  refine Comparison.read_eq_ok_iff.2 ⟨_, hspelled, Comparison.Parts.filter_eq_ok_iff.2 (.inl ?_)⟩
  exact ⟨show lowered (String.ofList presenceOperator.toList) = _ by decide, rfl, rfl⟩

theorem read_compare {path value : List Char} {op : String} (hpath : Comparison.IsPath path)
    (hop : op ∈ comparisonOperators) (hvalue : Comparison.IsValue value) :
    Comparison.read (path ++ ' ' :: (op.toList ++ ' ' :: value)) =
      .ok (.compare (String.ofList path) op (String.ofList value)) := by
  obtain ⟨hlower, hword⟩ := lowered_operator op (List.mem_cons_of_mem _ hop)
  have hspelled := Comparison.Parts.Spelled.valued hpath isGap_space hword isGap_space hvalue.1
    hvalue.2.1.1
  simp only [List.append_assoc, List.singleton_append] at hspelled
  refine Comparison.read_eq_ok_iff.2 ⟨_, hspelled, Comparison.Parts.filter_eq_ok_iff.2 (.inr ?_)⟩
  rw [String.ofList_toList, hlower]
  exact ⟨hop, hvalue.1, hvalue.2.2, rfl⟩

/-- A legible test of a query is an operand and reads as that test. -/
theorem operand_of_test {cs : List Char} {f : Filter} (h : Query.Test cs f) (hf : f.Legible) :
    Operand cs f 0 := by
  cases h with
  | @present name _ =>
    have hname : IsSubject (String.ofList name).toList := hf
    rw [String.toList_ofList] at hname
    have hpr : Passed (some ' ') ['p', 'r'] :=
      Connective.passed_token _ (Connective.isToken_word presenceOperator (by decide))
    refine hname.operand hpr (by decide) (fun c hc => ?_) (read_present hname.isPath)
    cases hc
    decide
  | @compare name value op _ hop hliteral =>
    obtain ⟨hname, hI⟩ : IsSubject (String.ofList name).toList ∧
      'İ' ∉ (String.ofList value).toList := hf
    rw [String.toList_ofList] at hname hI
    have hvalue := isValue_of_isLiteral hliteral
    have hpassed : Passed (some ' ') (op.toList ++ ([' '] ++ value)) :=
      (Connective.passed_token _ (Connective.isToken_word op (by simp [hop]))).append
        ((Connective.passed_blanks _ rfl).append (Connective.passed_literal _ hliteral hI))
    refine hname.operand hpassed (by simp) (fun c hc => ?_) (read_compare hname.isPath hop hvalue)
    rw [← List.singleton_append, ← List.append_assoc,
      List.getLast?_append_of_ne_nil _ hvalue.1] at hc
    exact hvalue.2.1.2 c hc

/-- Two operands around a connective make an operand in parentheses, one level deeper. -/
theorem operand_linked {l r : List Char} {f g : Filter} {j k : Nat} (hl : Operand l f j)
    (hr : Operand r g k) (w : Connective) :
    Operand (bracketed (linked w l r)) (w.join f g) (max j k + 1) := by
  have ht := trimmed_linked hl.trimmed hl.reads hr.reads hr.trimmed w
  have hbalanced := Connective.balanced_linked w hl.passed.balanced hr.passed.balanced
  have hI := Connective.not_mem_linked w hl.passed.plain hr.passed.plain
  have hreads := reads_linked hl.trimmed hl.reads hr.reads hl.passed w
  have hnesting := nesting_linked hl.trimmed hl.reads hr.reads hl.passed w
  refine ⟨Connective.passed_bracketed none hbalanced hI, trimmed_of_trim_eq (trim_bracketed _),
    (reads_bracketed hbalanced).2 hreads, ?_⟩
  rw [nesting_bracketed hbalanced, trim_of_trimmed ht, Connective.first?_linked hl.passed, hnesting,
    hl.nesting_eq, hr.nesting_eq]
  rfl

end Filter

end ScimBridge
