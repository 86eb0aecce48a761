import ScimBridge.Proofs.Filter.Grammar

/-!
# Texts that are too deep

A balanced text that reads as a filter is either accepted with that filter or refused as a whole
for its depth, and its nesting alone decides between the two (`parse_of_reads`).

1. `RefusesDepthOnly`: what such a reader of the nested parts gives is passed on by the loop over
   redundant parentheses and by the walk over a chain, which find no fault of their own in a text
   that reads as a filter.
2. `refusesDepthOnly_readExpression`: by induction on the number of levels.
-/

namespace ScimBridge

namespace Filter

/-- A reader that refuses no text that reads as a filter, but for its depth. -/
def RefusesDepthOnly (nested : List Char → Except FilterError Filter) : Prop :=
  ∀ cs f e, Reads cs f → nested cs = .error e → e.fault = .nestedTooDeeply

section Levels

variable {nested : List Char → Except FilterError Filter} (hnested : RefusesDepthOnly nested)

include hnested

theorem fault_of_readPart {whole cs : List Char} {f : Filter} {e : FilterError}
    (ht : trim cs = cs) (hc : Connective.first? cs = none) (hr : Reads cs f)
    (h : readPart nested whole cs = .error e) : e.fault = .nestedTooDeeply := by
  fun_induction readPart nested whole cs with
  | case1 cs hg =>
    rw [← ht] at hc hg
    unfold readSimple at h
    split at h
    · rename_i rest hn
      rw [← ht] at hn
      obtain ⟨g, -, hrest⟩ := (reads_negation_iff hc hg hn).1 hr
      exact hnested rest g e hrest (map_eq_error_iff.1 h)
    · rename_i hn
      rw [← ht] at hn h
      cases h.symm.trans ((reads_comparison_iff hc hg hn).1 hr)
  | case2 cs interior hg inner hi =>
    rw [← ht] at hc hg
    exact absurd ((reads_group_iff hc hg).1 hr) (not_reads_of_trim_eq_nil hi f)
  | case3 cs interior hg inner hi hs =>
    rw [← ht] at hc hg
    exact hnested inner f e (reads_trim_iff.2 ((reads_group_iff hc hg).1 hr)) h
  | case4 cs interior hg inner hi hs ih =>
    rw [← ht] at hc hg
    exact ih (trim_trim interior) (Option.not_isSome_iff_eq_none.1 hs)
      (reads_trim_iff.2 ((reads_group_iff hc hg).1 hr)) h

theorem fault_of_readTerm {cs : List Char} {f : Filter} {e : FilterError}
    (hc : Connective.first? (trim cs) = none) (hr : Reads cs f)
    (h : readTerm nested cs = .error e) : e.fault = .nestedTooDeeply :=
  fault_of_readPart hnested (trim_trim cs) hc (reads_trim_iff.2 hr) h

theorem fault_of_readChain {terms : List (Filter × Connective)} {cs : List Char} {e : FilterError}
    (ht : trim cs = cs) (hr : ∃ f, Reads cs f) (h : readChain nested terms cs = .error e) :
    e.fault = .nestedTooDeeply := by
  fun_induction readChain nested terms cs with
  | case1 terms cs hc =>
    rw [← ht] at hc
    obtain ⟨f, hr⟩ := hr
    exact fault_of_readTerm hnested hc hr (map_eq_error_iff.1 h)
  | case2 terms cs i w hc left right hb =>
    rw [← ht] at hc
    obtain ⟨f, hr⟩ := hr
    rw [reads_chain_iff hc, ht] at hr
    obtain ⟨l, r, -, hl, hr⟩ := hr
    rw [Bool.or_eq_true, ← trim_eq_nil_iff, ← trim_eq_nil_iff] at hb
    rcases hb with hb | hb
    · exact absurd hl (not_reads_of_trim_eq_nil hb l)
    · exact absurd hr (not_reads_of_trim_eq_nil hb r)
  | case3 terms cs i w hc left right hb e' he =>
    have hterm := Connective.first?_trim_take (trimmed_of_trim_eq ht) hc
    rw [← ht] at hc
    obtain ⟨f, hr⟩ := hr
    rw [reads_chain_iff hc, ht] at hr
    obtain ⟨l, -, -, hl, -⟩ := hr
    cases h
    exact fault_of_readTerm hnested hterm hl he
  | case4 terms cs i w hc left right hb term hl ih =>
    rw [← ht] at hc
    obtain ⟨f, hr⟩ := hr
    rw [reads_chain_iff hc, ht] at hr
    obtain ⟨-, r, -, -, hr⟩ := hr
    exact ih (trim_trim right) ⟨r, reads_trim_iff.2 hr⟩ h

end Levels

theorem refusesDepthOnly_readExpression (levels : Nat) :
    RefusesDepthOnly (readExpression levels) := by
  induction levels with
  | zero =>
    intro cs f e _ h
    cases h
    rfl
  | succ levels ih =>
    intro cs f e hr h
    unfold readExpression at h
    by_cases hnil : trim cs = []
    · exact absurd hr (not_reads_of_trim_eq_nil hnil f)
    · rw [if_neg hnil] at h
      exact fault_of_readChain ih (trim_trim cs) ⟨f, reads_trim_iff.2 hr⟩ h

/-- The refusal of a text that is nested too deeply. -/
def tooDeep (text : String) : FilterError := ⟨excerpt text.toList, .nestedTooDeeply⟩

/-- A balanced text that reads as a filter is accepted with it up to the limit of nesting and
refused for its depth from there on. -/
theorem parse_of_reads {text : String} {f : Filter} (hb : Balanced text.toList)
    (hr : Reads text.toList f) :
    (nesting text.toList < nestingLimit → parse text = .ok f) ∧
      (nestingLimit ≤ nesting text.toList → parse text = .error (tooDeep text)) := by
  refine ⟨fun hn => parse_eq_ok_iff.2 ⟨hb, hr, hn⟩, fun hn => ?_⟩
  unfold parse
  rw [if_neg hr.not_allBlank, balanceFault?_eq_none_iff.2 hb]
  show (readExpression nestingLimit text.toList).mapError (nameWhole text.toList) = _
  cases he : readExpression nestingLimit text.toList with
  | ok g =>
    have hlt := ((readExpression_eq_ok_iff nestingLimit text.toList g).1 he).2
    exact absurd hlt (Nat.not_lt.2 hn)
  | error e =>
    have hfault := refusesDepthOnly_readExpression nestingLimit text.toList f e hr he
    exact congrArg Except.error (if_pos hfault)

end Filter

end ScimBridge
