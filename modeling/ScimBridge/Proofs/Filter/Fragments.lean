import ScimBridge.Proofs.Filter.Walk

/-!
# The parts that the reader works on and refuses

Each text that the reader comes to is a part of the filter, and if the filter is balanced and free of
dotted capitals, so is each of these texts (`fragments_balanced`). A refused filter is named by such
a part; only parentheses and literals that do not match are a fault of the whole, and only a filter
that is nested too deeply is named by its beginning (`refusal_names_part`).
-/

namespace ScimBridge

namespace Filter

/-! ## What cuts keep -/

theorem trim_isInfix (cs : List Char) : trim cs <:+: cs := by
  obtain ⟨u, v, -, -, he⟩ := exists_blanks_trim cs
  exact ⟨u, v, he.symm⟩

theorem interior_isInfix {cs inner : List Char} (h : groupInterior? cs = some inner) :
    inner <:+: cs := by
  rw [eq_of_groupInterior? h]
  exact ⟨['('], [')'], rfl⟩

theorem rest_isInfix {cs rest : List Char} (h : negated? cs = some rest) : rest <:+: cs := by
  obtain ⟨kw, gap, rfl, -⟩ := negated?_eq_some_iff.1 h
  rw [← List.append_assoc]
  exact (List.suffix_append _ _).isInfix

/-- What is cut out of a part of a text is a part of the text. -/
theorem keptByCuts_isInfix (text : List Char) : KeptByCuts (· <:+: text) where
  trim h := (trim_isInfix _).trans h
  left h _ := (List.take_prefix _ _).isInfix.trans h
  right h _ := (List.drop_suffix _ _).isInfix.trans h
  interior h hg := (interior_isInfix hg).trans h
  rest h hn := (rest_isInfix hn).trans h

/-- What is cut out of a balanced text without dotted capitals is such a text. -/
theorem keptByCuts_balanced : KeptByCuts fun cs => Balanced cs ∧ 'İ' ∉ cs where
  trim h := ⟨h.1.trim, fun hI => h.2 ((trim_isInfix _).mem hI)⟩
  left h hc := ⟨h.1.take_first? hc, fun hI => h.2 (List.mem_of_mem_take hI)⟩
  right h hc := ⟨h.1.drop_first? h.2 hc, fun hI => h.2 (List.mem_of_mem_drop hI)⟩
  interior h hg := ⟨h.1.interior hg, fun hI => h.2 ((interior_isInfix hg).mem hI)⟩
  rest h hn := ⟨h.1.negated hn, fun hI => h.2 ((rest_isInfix hn).mem hI)⟩

/-! ## Balanced fragments -/

/-- **Every fragment is balanced.** A filter that passes the check of parentheses and literals, and
holds no dotted capital, is read on a walk of which each text passes the check as well. In each of
them the first connective stands outside literals and parentheses, and a parenthesis at the head is
closed where the scan says, which is the one place where no parenthesis is open for the first time.
The tests of an accepted filter are those that are read on the walk. -/
theorem fragments_balanced {text : String} (hb : balanceFault? text.toList = none)
    (hI : 'İ' ∉ text.toList) :
    (reading text).outcome = parse text ∧
    (∀ f, parse text = .ok f → (reading text).tests = f.tests) ∧
    ∀ v ∈ (reading text).visits,
      balanceFault? v.text = none ∧
      (∀ i w, Connective.first? v.text = some (i, w) →
        Cursor.start.behind (v.text.take i) = Cursor.start) ∧
      ∀ rest, v.text = '(' :: rest →
        ∃ i, closingIndex? Cursor.start v.text = some i ∧
          ∀ j, FirstClosed Cursor.start v.text j ↔ j = i := by
  have houtcome := outcome_reading text
  refine ⟨houtcome, fun f hf => complete_reading text f (houtcome.trans hf), fun v hv => ?_⟩
  have hkept := keptByCuts_balanced.reading ⟨balanceFault?_eq_none_iff.1 hb, hI⟩ v hv
  refine ⟨balanceFault?_eq_none_iff.2 hkept.1, fun i w hc => ?_, fun rest he => ?_⟩
  · exact (Connective.search?_eq_some hc).1
  · exact hkept.1.exists_closingIndex? he

/-- A group that holds a string with parentheses, behind a `not` in a chain. -/
theorem fragments_balanced_of_string :
    balanceFault? "a pr and not (b eq \"x) or (y\")".toList = none ∧
    ⟨.part, "(b eq \"x) or (y\")".toList⟩ ∈ (reading "a pr and not (b eq \"x) or (y\")").visits ∧
    balanceFault? "(b eq \"x) or (y\")".toList = none ∧
    ∃ i, closingIndex? Cursor.start "(b eq \"x) or (y\")".toList = some i ∧
      ∀ j, FirstClosed Cursor.start "(b eq \"x) or (y\")".toList j ↔ j = i := by
  have hb : balanceFault? "a pr and not (b eq \"x) or (y\")".toList = none := by decide +kernel
  have hv : (⟨.part, "(b eq \"x) or (y\")".toList⟩ : Visit) ∈
      (reading "a pr and not (b eq \"x) or (y\")").visits := by decide +kernel
  obtain ⟨-, -, hall⟩ := fragments_balanced hb (by decide)
  obtain ⟨hpart, -, hclosed⟩ := hall _ hv
  exact ⟨hb, hv, hpart, hclosed _ rfl⟩

/-! ## Named fragments -/

theorem isImbalance_of_fault? {cur : Cursor} {cs : List Char} {fault : FilterFault}
    (h : cur.fault? cs = some fault) : fault.isImbalance = true := by
  induction cs generalizing cur with
  | nil =>
    unfold Cursor.fault? at h
    split_ifs at h <;> cases h <;> rfl
  | cons c cs ih =>
    rw [Cursor.fault?_cons] at h
    split at h
    · cases h
      rfl
    · exact ih h

/-- A text that is not balanced is refused as a whole. -/
theorem parse_of_imbalance {text : String} {fault : FilterFault}
    (h : balanceFault? text.toList = some fault) : parse text = .error ⟨text, fault⟩ := by
  have hblank : ¬ allBlank text.toList = true := by
    intro hblank
    rw [balanceFault?_eq_none_iff.2 (balanced_of_allBlank hblank)] at h
    cases h
  unfold parse
  rw [if_neg hblank, h]

/-- A fault of a balanced text is found in one of the texts on the walk, but for the depth. -/
theorem located_of_balanced {text : String} (hblank : ¬ allBlank text.toList = true)
    (hb : Balanced text.toList) {e : FilterError} (h : parse text = .error e) :
    ∃ e', Located (reading text).visits e' ∧ nameWhole text.toList e' = e := by
  have hvisits : (reading text).visits = (Walk.expression nestingLimit text.toList).visits := by
    unfold reading
    rw [if_neg hblank, balanceFault?_eq_none_iff.2 hb]
  unfold parse at h
  rw [if_neg hblank, balanceFault?_eq_none_iff.2 hb] at h
  obtain ⟨e', he', rfl⟩ := mapError_eq_error_iff.1 h
  rw [← Walk.outcome_expression] at he'
  exact ⟨e', hvisits ▸ Walk.locates_expression _ _ e' he', rfl⟩

/-- What a refusal says: its fragment is a part of the text, or the whole text for a fault of the
parentheses and literals, or the text or its beginning for its depth; and it does not miss an
operand. -/
structure NamesPart (text : String) (e : FilterError) : Prop where
  part : e.fault ≠ .nestedTooDeeply → e.fragment.toList <:+: text.toList
  whole : e.fault.isImbalance = true → e.fragment = text ∧ ¬ Balanced text.toList
  depth : e.fault = .nestedTooDeeply →
    if (CodePoint.points text.toList).length ≤ 60 then e.fragment = text
    else e.fragment = CodePoint.textOf ((CodePoint.points text.toList).take 60) ++ "..."
  operands : ∀ w, e.fault ≠ .missingOperand w

theorem namesPart_empty (text : String) : NamesPart text ⟨text, .emptyExpression⟩ :=
  ⟨fun _ => List.infix_rfl, fun h => (nomatch h), fun h => (nomatch h), fun _ h => nomatch h⟩

theorem namesPart_imbalance {text : String} {fault : FilterFault}
    (h : balanceFault? text.toList = some fault) : NamesPart text ⟨text, fault⟩ := by
  have himbalance := isImbalance_of_fault? h
  have hb : ¬ Balanced text.toList := fun hb => by
    rw [balanceFault?_eq_none_iff.2 hb] at h
    cases h
  refine ⟨fun _ => List.infix_rfl, fun _ => ⟨rfl, hb⟩, ?_, ?_⟩
  · rintro (rfl : fault = .nestedTooDeeply)
    cases himbalance
  · rintro w (rfl : fault = .missingOperand w)
    cases himbalance

theorem namesPart_excerpt (text : String) :
    NamesPart text ⟨excerpt text.toList, .nestedTooDeeply⟩ := by
  refine ⟨fun h => absurd rfl h, fun h => (nomatch h), fun _ => ?_, fun _ h => nomatch h⟩
  unfold excerpt
  dsimp only
  split_ifs
  · exact String.ofList_toList
  · rfl

/-- A fault that is found on the walk is that of a part of the text. -/
theorem namesPart_of_located {text : String} {e : FilterError}
    (h : Located (reading text).visits e) (hdepth : e.fault ≠ .nestedTooDeeply) :
    NamesPart text e := by
  obtain ⟨v, hv, hfragment⟩ := h.visited
  have hpart := (keptByCuts_isInfix text.toList).reading List.infix_rfl v hv
  refine ⟨fun _ => ?_, fun himbalance => ?_, fun hd => absurd hd hdepth, h.operands⟩
  · rw [hfragment, String.toList_ofList]
    exact hpart
  · cases himbalance.symm.trans h.balanced

/-- **A refusal names a part of the filter.** The fragment of a refused filter is a part of its text;
for a filter that is nested too deeply it is the whole text or, if that is longer, its first sixty
characters and three points. A filter whose parentheses or literals do not match anywhere is refused
as a whole. No filter is refused because an operand is missing. -/
theorem refusal_names_part (text : String) :
    (∀ e, parse text = .error e → NamesPart text e) ∧
    (¬ Balanced text.toList →
      ∃ fault, fault.isImbalance = true ∧ parse text = .error ⟨text, fault⟩) := by
  constructor
  · intro e he
    by_cases hblank : allBlank text.toList = true
    · unfold parse at he
      rw [if_pos hblank] at he
      cases he
      exact namesPart_empty text
    cases hf : balanceFault? text.toList with
    | some fault =>
      cases he.symm.trans (parse_of_imbalance hf)
      exact namesPart_imbalance hf
    | none =>
      obtain ⟨e', hl, rfl⟩ := located_of_balanced hblank (balanceFault?_eq_none_iff.1 hf) he
      unfold nameWhole
      split
      · exact namesPart_excerpt text
      · rename_i hdepth
        exact namesPart_of_located hl hdepth
  · intro hb
    obtain ⟨fault, hf⟩ := Option.ne_none_iff_exists'.1 (mt balanceFault?_eq_none_iff.1 hb)
    exact ⟨fault, isImbalance_of_fault? hf, parse_of_imbalance hf⟩

/-- A comparison in a group of a chain, and a literal that is not closed. -/
theorem refusal_names_comparison :
    parse "userName eq \"a\" and (title xx \"b\" or c pr)" =
      .error ⟨"title xx \"b\"", .unsupportedOperator "xx"⟩ ∧
    NamesPart "userName eq \"a\" and (title xx \"b\" or c pr)"
      ⟨"title xx \"b\"", .unsupportedOperator "xx"⟩ ∧
    ∃ fault, fault.isImbalance = true ∧
      parse "a pr and (b eq \"x)" = .error ⟨"a pr and (b eq \"x)", fault⟩ := by
  have h : parse "userName eq \"a\" and (title xx \"b\" or c pr)" =
      .error ⟨"title xx \"b\"", .unsupportedOperator "xx"⟩ :=
    eq_error_of_error? (by decide +kernel)
  have hb : ¬ Balanced "a pr and (b eq \"x)".toList := by
    rw [← balanceFault?_eq_none_iff]
    decide
  exact ⟨h, (refusal_names_part _).1 _ h, (refusal_names_part _).2 hb⟩

end Filter

end ScimBridge
