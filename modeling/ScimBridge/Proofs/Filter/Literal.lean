import ScimBridge.Filter.Literal
import ScimBridge.Proofs.Filter.Comparison

/-!
# Literals of the backend

A number is spelled by a sign, digits, a fraction and an exponent, and a string by a content between
quotes. What is taken for a number or a string is one, up to a line end behind it
(`exists_of_isNumber`, `isString_iff`). A trimmed value has no such line end, so what it becomes is
always one whole literal (`isLiteral_ofValue`).
-/

namespace ScimBridge

namespace Literal

/-! ## The spelling of literals -/

/-- One or more decimal digits. -/
def IsDigits (cs : List Char) : Prop := cs ≠ [] ∧ ∀ c ∈ cs, isDecimal c = true

/-- Perhaps a point and digits. -/
def IsFraction (cs : List Char) : Prop := cs = [] ∨ ∃ d, IsDigits d ∧ cs = '.' :: d

/-- Perhaps an `e`, perhaps a sign, and digits. -/
def IsExponent (cs : List Char) : Prop :=
  cs = [] ∨ ∃ e sign d, (e = 'e' ∨ e = 'E') ∧ (sign = [] ∨ sign = ['+'] ∨ sign = ['-']) ∧
    IsDigits d ∧ cs = e :: (sign ++ d)

/-- Perhaps a minus, digits, a fraction and an exponent. -/
def IsNumber (cs : List Char) : Prop :=
  ∃ sign d f e, (sign = [] ∨ sign = ['-']) ∧ IsDigits d ∧ IsFraction f ∧ IsExponent e ∧
    cs = sign ++ (d ++ (f ++ e))

/-- A keyword, a number or a string, with nothing around it. -/
def IsLiteral (cs : List Char) : Prop :=
  (∃ k ∈ keywords, cs = k.toList) ∨ IsNumber cs ∨ ∃ b, Content b ∧ cs = enclosed b

/-! ## Numbers -/

theorem atEnd_iff {cs : List Char} : atEnd cs = true ↔ cs = [] ∨ cs = ['\n'] := by
  unfold atEnd
  rw [Bool.or_eq_true, beq_iff_eq, beq_iff_eq]

theorem afterDigits?_eq_some_iff {cs rest : List Char} :
    afterDigits? cs = some rest ↔
      ∃ d, cs = d ++ rest ∧ IsDigits d ∧ ∀ c, rest.head? = some c → isDecimal c = false := by
  cases cs with
  | nil =>
    constructor
    · intro h
      cases h
    · rintro ⟨d, h, hd, -⟩
      exact absurd (List.append_eq_nil_iff.1 h.symm).1 hd.1
  | cons c cs =>
    unfold afterDigits?
    constructor
    · intro h
      obtain ⟨hc, he⟩ := Option.ite_none_right_eq_some.1 h
      cases he
      refine ⟨c :: cs.takeWhile isDecimal, ?_, ⟨by simp, ?_⟩, fun d hd => head?_dropWhile hd⟩
      · rw [List.cons_append, List.takeWhile_append_dropWhile]
      · intro d hd
        rcases List.mem_cons.1 hd with rfl | hd
        · exact hc
        · exact List.mem_takeWhile_imp hd
    · rintro ⟨run, h, ⟨hne, hrun⟩, hrest⟩
      obtain ⟨d, run, rfl⟩ := List.exists_cons_of_ne_nil hne
      rw [List.forall_mem_cons] at hrun
      rw [h]
      show (if isDecimal d = true then some ((run ++ rest).dropWhile isDecimal) else none) = _
      rw [if_pos hrun.1, dropWhile_run hrun.2 hrest]

theorem afterDigits?_digits {d : List Char} (hd : IsDigits d) : afterDigits? d = some [] := by
  refine afterDigits?_eq_some_iff.2 ⟨d, (List.append_nil d).symm, hd, ?_⟩
  intro c h
  cases h

theorem IsDigits.head?_ne {d : List Char} (hd : IsDigits d) {c : Char} (hc : isDecimal c = false)
    (rest : List Char) : d ≠ c :: rest := by
  rintro rfl
  rw [hd.2 c List.mem_cons_self] at hc
  cases hc

/-- A fraction is what stands in front of the rest behind it. -/
theorem exists_fraction (cs : List Char) : ∃ f, IsFraction f ∧ cs = f ++ afterFraction cs := by
  unfold afterFraction
  split
  · rename_i rest
    cases h : afterDigits? rest with
    | none => exact ⟨[], .inl rfl, rfl⟩
    | some rest' =>
      obtain ⟨d, rfl, hd, -⟩ := afterDigits?_eq_some_iff.1 h
      exact ⟨'.' :: d, .inr ⟨d, hd, rfl⟩, rfl⟩
  · exact ⟨[], .inl rfl, rfl⟩

/-- The text without the sign in front of the digits of an exponent. -/
def afterSign : List Char → List Char
  | '+' :: rest => rest
  | '-' :: rest => rest
  | rest => rest

theorem exists_sign (cs : List Char) :
    ∃ sign, (sign = [] ∨ sign = ['+'] ∨ sign = ['-']) ∧ cs = sign ++ afterSign cs := by
  unfold afterSign
  split
  · exact ⟨['+'], .inr (.inl rfl), rfl⟩
  · exact ⟨['-'], .inr (.inr rfl), rfl⟩
  · exact ⟨[], .inl rfl, rfl⟩

theorem afterSign_digits {d : List Char} (hd : IsDigits d) : afterSign d = d := by
  unfold afterSign
  split
  · rename_i rest
    exact absurd rfl (hd.head?_ne (show isDecimal '+' = false by decide +kernel) rest)
  · rename_i rest
    exact absurd rfl (hd.head?_ne (show isDecimal '-' = false by decide +kernel) rest)
  · rfl

theorem afterExponent_cons {c : Char} (hc : c = 'e' ∨ c = 'E') (rest : List Char) :
    afterExponent (c :: rest) = (afterDigits? (afterSign rest)).getD (c :: rest) := by
  have hc' : (c == 'e' || c == 'E') = true := by
    rw [Bool.or_eq_true, beq_iff_eq, beq_iff_eq]
    exact hc
  unfold afterExponent
  simp only [if_pos hc']
  rfl

theorem exists_exponent (cs : List Char) : ∃ e, IsExponent e ∧ cs = e ++ afterExponent cs := by
  cases cs with
  | nil => exact ⟨[], .inl rfl, rfl⟩
  | cons c rest =>
    by_cases hc : c = 'e' ∨ c = 'E'
    · rw [afterExponent_cons hc]
      obtain ⟨sign, hsign, hrest⟩ := exists_sign rest
      cases h : afterDigits? (afterSign rest) with
      | none => exact ⟨[], .inl rfl, rfl⟩
      | some rest' =>
        obtain ⟨d, hdigits, hd, -⟩ := afterDigits?_eq_some_iff.1 h
        refine ⟨c :: (sign ++ d), .inr ⟨c, sign, d, hc, hsign, hd, rfl⟩, ?_⟩
        rw [hdigits] at hrest
        rw [hrest]
        simp
    · have hc' : ¬ (c == 'e' || c == 'E') = true := by
        rw [Bool.or_eq_true, beq_iff_eq, beq_iff_eq]
        exact hc
      unfold afterExponent
      simp only [if_neg hc']
      exact ⟨[], .inl rfl, rfl⟩

theorem afterExponent_exponent {e : List Char} (he : IsExponent e) : afterExponent e = [] := by
  rcases he with rfl | ⟨c, sign, d, hc, hsign, hd, rfl⟩
  · rfl
  · have hdigits : afterSign (sign ++ d) = d := by
      rcases hsign with rfl | rfl | rfl
      · exact afterSign_digits hd
      · rfl
      · rfl
    rw [afterExponent_cons hc, hdigits, afterDigits?_digits hd]
    rfl

theorem head?_exponent {e : List Char} (he : IsExponent e) {c : Char} (h : e.head? = some c) :
    c = 'e' ∨ c = 'E' := by
  rcases he with rfl | ⟨d, sign, ds, hd, -, -, rfl⟩
  · cases h
  · cases h
    exact hd

theorem isDecimal_head?_exponent {e : List Char} (he : IsExponent e) (c : Char)
    (h : e.head? = some c) : isDecimal c = false := by
  rcases head?_exponent he h with rfl | rfl <;> decide +kernel

theorem isDecimal_head?_fraction {f e : List Char} (hf : IsFraction f) (he : IsExponent e)
    (c : Char) (h : (f ++ e).head? = some c) : isDecimal c = false := by
  rcases hf with rfl | ⟨d, hd, rfl⟩
  · exact isDecimal_head?_exponent he c h
  · cases h
    decide +kernel

theorem afterFraction_fraction {f e : List Char} (hf : IsFraction f) (he : IsExponent e) :
    afterFraction (f ++ e) = e := by
  rcases hf with rfl | ⟨d, hd, rfl⟩
  · unfold afterFraction
    split
    · rename_i rest h
      have hdot : e.head? = some '.' := by
        rw [← List.nil_append e, h]
        rfl
      rcases head?_exponent he hdot with h | h <;> cases h
    · rfl
  · have h : afterDigits? (d ++ e) = some e :=
      afterDigits?_eq_some_iff.2 ⟨d, rfl, hd, isDecimal_head?_exponent he⟩
    show (afterDigits? (d ++ e)).getD _ = e
    rw [h]
    rfl

/-- The text without a minus in front. -/
def afterMinus : List Char → List Char
  | '-' :: rest => rest
  | rest => rest

theorem exists_minus (cs : List Char) :
    ∃ sign, (sign = [] ∨ sign = ['-']) ∧ cs = sign ++ afterMinus cs := by
  unfold afterMinus
  split
  · exact ⟨['-'], .inr rfl, rfl⟩
  · exact ⟨[], .inl rfl, rfl⟩

theorem afterMinus_digits {d : List Char} (hd : IsDigits d) (rest : List Char) :
    afterMinus (d ++ rest) = d ++ rest := by
  obtain ⟨c, d, rfl⟩ := List.exists_cons_of_ne_nil hd.1
  rw [List.cons_append]
  unfold afterMinus
  split
  · rename_i h
    cases h
    exact absurd rfl (hd.head?_ne (show isDecimal '-' = false by decide +kernel) d)
  · rfl

theorem isNumber_eq (cs : List Char) :
    isNumber cs =
      (afterDigits? (afterMinus cs)).any fun rest => atEnd (afterExponent (afterFraction rest)) :=
  rfl

/-- What passes for a number is a number, perhaps with a line end behind it. -/
theorem exists_of_isNumber {cs : List Char} (h : isNumber cs = true) :
    ∃ n, IsNumber n ∧ (cs = n ∨ cs = n ++ ['\n']) := by
  rw [isNumber_eq, Option.any_eq_true] at h
  obtain ⟨rest, hdigits, hend⟩ := h
  obtain ⟨sign, hsign, hcs⟩ := exists_minus cs
  obtain ⟨d, hd, hdigits, -⟩ := afterDigits?_eq_some_iff.1 hdigits
  obtain ⟨f, hf, hfraction⟩ := exists_fraction rest
  obtain ⟨e, he, hexponent⟩ := exists_exponent (afterFraction rest)
  refine ⟨sign ++ (d ++ (f ++ e)), ⟨sign, d, f, e, hsign, hdigits, hf, he, rfl⟩, ?_⟩
  rw [hcs, hd, hfraction, hexponent]
  rcases atEnd_iff.1 hend with hend | hend <;> rw [hend]
  · exact .inl (by rw [List.append_nil])
  · exact .inr (by simp only [List.append_assoc])

theorem isNumber_of_isNumber {n : List Char} (h : IsNumber n) : isNumber n = true := by
  obtain ⟨sign, d, f, e, hsign, hd, hf, he, rfl⟩ := h
  have hunsigned : afterMinus (sign ++ (d ++ (f ++ e))) = d ++ (f ++ e) := by
    rcases hsign with rfl | rfl
    · exact afterMinus_digits hd (f ++ e)
    · rfl
  have hdigits : afterDigits? (d ++ (f ++ e)) = some (f ++ e) :=
    afterDigits?_eq_some_iff.2 ⟨d, rfl, hd, isDecimal_head?_fraction hf he⟩
  rw [isNumber_eq, hunsigned, hdigits]
  show atEnd (afterExponent (afterFraction (f ++ e))) = true
  rw [afterFraction_fraction hf he, afterExponent_exponent he]
  rfl

/-- A number is made of digits, signs, points and the letter of the exponent. -/
theorem mem_isNumber {n : List Char} (h : IsNumber n) {c : Char} (hc : c ∈ n) :
    isDecimal c = true ∨ c ∈ ['-', '+', '.', 'e', 'E'] := by
  obtain ⟨sign, d, f, e, hsign, hd, hf, he, rfl⟩ := h
  simp only [List.mem_append] at hc
  rcases hc with hc | hc | hc | hc
  · rcases hsign with rfl | rfl
    · cases hc
    · cases List.mem_singleton.1 hc
      exact .inr (by decide)
  · exact .inl (hd.2 c hc)
  · rcases hf with rfl | ⟨d, hd, rfl⟩
    · cases hc
    · rcases List.mem_cons.1 hc with rfl | hc
      · exact .inr (by decide)
      · exact .inl (hd.2 c hc)
  · rcases he with rfl | ⟨e, sign, d, he, hsign, hd, rfl⟩
    · cases hc
    · rcases List.mem_cons.1 hc with rfl | hc
      · rcases he with rfl | rfl <;> exact .inr (by decide)
      · rcases List.mem_append.1 hc with hc | hc
        · rcases hsign with rfl | rfl | rfl
          · cases hc
          · cases List.mem_singleton.1 hc
            exact .inr (by decide)
          · cases List.mem_singleton.1 hc
            exact .inr (by decide)
        · exact .inl (hd.2 c hc)

/-- A number begins with a minus or a digit. -/
theorem exists_cons_of_isNumber {n : List Char} (h : IsNumber n) :
    ∃ c rest, n = c :: rest ∧ (c = '-' ∨ isDecimal c = true) := by
  obtain ⟨sign, d, f, e, rfl | rfl, hd, -, -, rfl⟩ := h
  · obtain ⟨c, d, rfl⟩ := List.exists_cons_of_ne_nil hd.1
    exact ⟨c, _, rfl, .inr (hd.2 c List.mem_cons_self)⟩
  · exact ⟨'-', _, rfl, .inl rfl⟩

/-! ## Strings and values -/

/-- What passes for a string is a string, perhaps with a line end behind it. -/
theorem isString_iff {cs : List Char} :
    isString cs = true ↔ ∃ b, Content b ∧ (cs = enclosed b ∨ cs = enclosed b ++ ['\n']) := by
  constructor
  · intro h
    unfold isString at h
    split at h
    · rename_i rest
      obtain ⟨tail, htail, hend⟩ := (Option.any_eq_true _ _).1 h
      obtain ⟨b, hb, rfl⟩ := exists_content_of_afterString? htail
      refine ⟨b, hb, ?_⟩
      rcases atEnd_iff.1 hend with rfl | rfl
      · exact .inl rfl
      · refine .inr ?_
        simp [enclosed]
    · cases h
  · rintro ⟨b, hb, rfl | rfl⟩
    · show (afterString? (b ++ ['"'])).any atEnd = true
      rw [afterString?_content hb]
      rfl
    · show (afterString? (b ++ ['"'] ++ ['\n'])).any atEnd = true
      rw [List.append_assoc]
      show (afterString? (b ++ '"' :: ['\n'])).any atEnd = true
      rw [afterString?_content hb]
      rfl

/-- A trimmed text ends in no line end. -/
theorem ne_append_newline {cs : List Char} (ht : Trimmed cs) (m : List Char) :
    cs ≠ m ++ ['\n'] := by
  rintro rfl
  have := ht.2 '\n' List.getLast?_concat
  cases this

theorem isNumber_iff {cs : List Char} (ht : Trimmed cs) : isNumber cs = true ↔ IsNumber cs := by
  constructor
  · intro h
    obtain ⟨n, hn, rfl | he⟩ := exists_of_isNumber h
    · exact hn
    · exact absurd he (ne_append_newline ht n)
  · exact isNumber_of_isNumber

theorem mem_escape_iff {c : Char} (hc : c ≠ '\\') {cs : List Char} :
    c ∈ escape cs ↔ c ∈ cs := by
  induction cs with
  | nil => rfl
  | cons d cs ih =>
    unfold escape
    split <;> simp [hc, ih]

/-- Quoting makes a string. -/
theorem isLiteral_quote (s : String) : IsLiteral (quote s).toList := by
  unfold quote
  rw [String.toList_ofList]
  exact .inr (.inr ⟨escape s.toList, content_escape s.toList, rfl⟩)

/-- A trimmed value becomes one whole literal. -/
theorem isLiteral_render {value : String} (ht : Trimmed value.toList) :
    IsLiteral (render value).toList := by
  unfold render
  split
  · rename_i hk
    exact .inl ⟨lowered value, by simpa using hk, rfl⟩
  · split
    · rename_i hn
      exact .inr (.inl ((isNumber_iff ht).1 hn))
    · split
      · rename_i hs
        obtain ⟨b, hb, he | he⟩ := isString_iff.1 hs
        · exact .inr (.inr ⟨b, hb, he⟩)
        · exact absurd he (ne_append_newline ht _)
      · exact isLiteral_quote value

theorem eq_of_statusWord? {value word : String} (h : statusWord? value = some word) :
    word = quote "active" ∨ word = quote "inactive" := by
  unfold statusWord? at h
  split at h
  · cases h
    exact .inl (by decide)
  · split at h
    · cases h
      exact .inr (by decide)
    · cases h

theorem isLiteral_ofValue (path : String) {value : String} (ht : Trimmed value.toList) :
    IsLiteral (ofValue path value).toList := by
  unfold ofValue
  split
  · cases hs : statusWord? value with
    | none => exact isLiteral_render ht
    | some word => rcases eq_of_statusWord? hs with rfl | rfl <;> exact isLiteral_quote _
  · exact isLiteral_render ht

/-! ## Literals as values -/

theorem isLatinLetter_of_isDecimal {c : Char} (h : isDecimal c = true) :
    isLatinLetter c = false := by
  have hpoints : ∀ n < 128, isDecimal (Char.ofNat n) = true →
      isLatinLetter (Char.ofNat n) = false := by decide +kernel
  by_contra hletter
  rw [Bool.not_eq_false] at hletter
  have hlt := Comparison.toNat_lt_of_isAlpha hletter
  have := hpoints c.toNat hlt
  rw [Char.ofNat_toNat, hletter] at this
  cases this h

/-- What is a keyword in lower case is made of Latin letters. -/
theorem letters_of_keyword {s : String} (h : lowered s ∈ keywords) :
    ∀ c ∈ s.toList, isLatinLetter c = true := by
  have hall : keywords.all (fun k => k.toList.all isLatinLetter) = true := by decide
  have hletters := List.all_eq_true.1 (List.all_eq_true.1 hall _ h)
  have hlower : (lowered s).toList = lowerText s.toList := String.toList_ofList
  exact (letters_of_lowerText hlower.symm hletters).2

theorem lowered_keyword : ∀ k ∈ keywords, lowered k = k := by decide

/-- A literal is its own literal. -/
theorem render_of_isLiteral {s : String} (h : IsLiteral s.toList) : render s = s := by
  by_cases hk : lowered s ∈ keywords
  · have hletters := letters_of_keyword hk
    have hs : s ∈ keywords := by
      rcases h with ⟨k, hk, he⟩ | hn | ⟨b, -, he⟩
      · exact String.toList_injective he ▸ hk
      · obtain ⟨c, rest, he, hc⟩ := exists_cons_of_isNumber hn
        have hc' := hletters c (he ▸ List.mem_cons_self)
        rcases hc with rfl | hc
        · cases hc'
        · cases (isLatinLetter_of_isDecimal hc).symm.trans hc'
      · cases hletters '"' (he ▸ List.mem_cons_self)
    unfold render
    rw [if_pos (by simpa using hk), lowered_keyword s hs]
  · unfold render
    rw [if_neg (by simpa using hk)]
    rcases h with ⟨k, hk', he⟩ | hn | ⟨b, hb, he⟩
    · rw [String.toList_injective he, lowered_keyword k hk'] at hk
      exact absurd hk' hk
    · rw [if_pos (isNumber_of_isNumber hn)]
    · rw [if_pos (isString_iff.2 ⟨b, hb, .inl he⟩), ite_self]

/-- A value whose literal is a keyword in lower case is that keyword in lower case. -/
theorem lowered_of_render {value word : String} (hw : word ∈ keywords)
    (h : lowered (render value) = word) : lowered value = word := by
  unfold render at h
  split at h
  · rename_i hk
    rwa [lowered_keyword _ (by simpa using hk)] at h
  · split at h
    · exact h
    · split at h
      · exact h
      · have hq : '"' ∈ (quote value).toList := by
          unfold quote
          rw [String.toList_ofList]
          exact List.mem_cons_self
        cases letters_of_keyword (h ▸ hw) '"' hq

/-- The literal of an account status is no truth value. -/
theorem statusWord?_ofValue (value : String) : statusWord? (ofValue statusPath value) = none := by
  rw [ofValue, if_pos rfl]
  cases hs : statusWord? value with
  | some word =>
    rw [Option.getD_some]
    rcases eq_of_statusWord? hs with rfl | rfl <;> decide
  | none =>
    have htrue : lowered value ≠ "true" := fun h => by simp [statusWord?, h] at hs
    have hfalse : lowered value ≠ "false" := fun h => by simp [statusWord?, h] at hs
    rw [Option.getD_none, statusWord?, if_neg fun h => htrue (lowered_of_render (by decide) h),
      if_neg fun h => hfalse (lowered_of_render (by decide) h)]

/-- The literal of a value stays as it is when it is taken for the value itself. -/
theorem ofValue_ofValue (path : String) {value : String} (ht : Trimmed value.toList) :
    ofValue path (ofValue path value) = ofValue path value := by
  have hrender := render_of_isLiteral (isLiteral_ofValue path ht)
  by_cases hp : path = statusPath
  · subst hp
    conv_lhs => rw [ofValue, if_pos rfl, statusWord?_ofValue, Option.getD_none]
    exact hrender
  · conv_lhs => rw [ofValue, if_neg hp]
    exact hrender

/-- No dotted capital comes into a literal that is not in the value. -/
theorem not_mem_ofValue (path : String) {value : String} (hI : 'İ' ∉ value.toList) :
    'İ' ∉ (ofValue path value).toList := by
  have hquote (s : String) (hs : 'İ' ∉ s.toList) : 'İ' ∉ (quote s).toList := by
    unfold quote
    rw [String.toList_ofList]
    simpa [mem_escape_iff] using hs
  have hrender : 'İ' ∉ (render value).toList := by
    unfold render
    split
    · rename_i hk
      have hkeywords : ∀ k ∈ keywords, 'İ' ∉ k.toList := by decide
      exact hkeywords _ (by simpa using hk)
    · split
      · exact hI
      · split
        · exact hI
        · exact hquote value hI
  unfold ofValue
  split
  · cases hs : statusWord? value with
    | none => exact hrender
    | some word =>
      rcases eq_of_statusWord? hs with rfl | rfl
      · exact hquote "active" (by decide)
      · exact hquote "inactive" (by decide)
  · exact hrender

end Literal

end ScimBridge
