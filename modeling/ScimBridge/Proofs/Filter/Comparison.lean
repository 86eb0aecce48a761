import ScimBridge.Filter.Comparison
import ScimBridge.Proofs.Filter.Balance
import ScimBridge.Proofs.Text.LowerCase
import ScimBridge.Proofs.Text.Trim

/-!
# The parts of a comparison

A comparison spells its path, its operator and its value with blanks between them, and the cut into
parts takes it apart at exactly these places (`Parts.of?_eq_some_iff`). What is read from it has a
well-formed path, a known operator and a value without blanks at its ends, which is a closed string
if it begins with a quote (`wellFormed_of_read`).
-/

namespace ScimBridge

namespace Comparison

theorem isPathChar_of_isBlank {c : Char} (h : isBlank c = true) : isPathChar c = false :=
  eq_false_of_isBlank (by decide +kernel) h

theorem toNat_lt_of_isAlpha {c : Char} (h : c.isAlpha = true) : c.toNat < 128 := by
  have hcase : (c.isUpper || c.isLower) = true := h
  show c.val.toNat < 128
  rcases Bool.or_eq_true_iff.1 hcase with hupper | hlower
  · have hle : 'A'.val ≤ c.val ∧ c.val ≤ 'Z'.val := of_decide_eq_true hupper
    have : c.val.toNat ≤ 90 := UInt32.le_iff_toNat_le.1 hle.2
    omega
  · have hle : (decide ('a'.val ≤ c.val) && decide (c.val ≤ 'z'.val)) = true := hlower
    have : c.val.toNat ≤ 122 :=
      UInt32.le_iff_toNat_le.1 (of_decide_eq_true (Bool.and_eq_true_iff.1 hle).2)
    omega

theorem isPathChar_of_isPathStart {c : Char} (h : isPathStart c = true) : isPathChar c = true := by
  unfold isPathStart at h
  simp only [Bool.or_eq_true, beq_iff_eq] at h
  rcases h with (h | rfl) | rfl
  · have hlt : c.toNat < 128 := toNat_lt_of_isAlpha h
    have ha : c.isAlpha = true := h
    simp [isPathChar, isWordChar, hlt, Char.isAlphanum, ha]
  · decide
  · decide

/-- A path: a letter, an underscore or a dollar sign, and further characters of paths. -/
def IsPath (cs : List Char) : Prop :=
  ∃ c rest, cs = c :: rest ∧ isPathStart c = true ∧ ∀ d ∈ rest, isPathChar d = true

/-- One or more blanks. -/
def IsGap (cs : List Char) : Prop := cs ≠ [] ∧ allBlank cs = true

/-- One or more Latin letters. -/
def IsWord (cs : List Char) : Prop := cs ≠ [] ∧ ∀ c ∈ cs, isLatinLetter c = true

theorem IsWord.head_not_blank {cs : List Char} (h : IsWord cs) (c : Char)
    (hc : cs.head? = some c) : isBlank c = false := by
  cases hb : isBlank c with
  | false => rfl
  | true =>
    have := h.2 c (List.mem_of_head? hc)
    rw [isLatinLetter_of_isBlank hb] at this
    cases this

/-- What spells the parts of a comparison. -/
inductive Parts.Spelled : Parts → List Char → Prop
  | bare {path gap op : List Char} : IsPath path → IsGap gap → IsWord op →
      Spelled ⟨path, op, []⟩ (path ++ gap ++ op)
  | valued {path gap op gap' value : List Char} : IsPath path → IsGap gap → IsWord op →
      IsGap gap' → value ≠ [] → (∀ c, value.head? = some c → isBlank c = false) →
      Spelled ⟨path, op, value⟩ (path ++ gap ++ op ++ gap' ++ value)

/-! ## The cut -/

theorem spanPath?_eq_some_iff {cs path rest : List Char} :
    spanPath? cs = some (path, rest) ↔
      cs = path ++ rest ∧ IsPath path ∧ ∀ c, rest.head? = some c → isPathChar c = false := by
  cases cs with
  | nil =>
    constructor
    · intro h
      cases h
    · rintro ⟨h, ⟨c, tail, rfl, -⟩, -⟩
      cases h
  | cons c cs =>
    unfold spanPath?
    constructor
    · intro h
      obtain ⟨hc, he⟩ := Option.ite_none_right_eq_some.1 h
      cases he
      refine ⟨?_, ⟨c, _, rfl, hc, fun d hd => List.mem_takeWhile_imp hd⟩,
        fun d hd => head?_dropWhile hd⟩
      rw [List.cons_append, List.takeWhile_append_dropWhile]
    · rintro ⟨h, ⟨d, tail, rfl, hd, htail⟩, hrest⟩
      rw [h]
      show (if isPathStart d = true then
        some (d :: (tail ++ rest).takeWhile isPathChar, (tail ++ rest).dropWhile isPathChar)
        else none) = _
      rw [if_pos hd, takeWhile_run htail hrest, dropWhile_run htail hrest]

theorem afterBlanks?_eq_some_iff {cs rest : List Char} :
    afterBlanks? cs = some rest ↔
      ∃ gap, cs = gap ++ rest ∧ IsGap gap ∧ ∀ c, rest.head? = some c → isBlank c = false := by
  cases cs with
  | nil =>
    constructor
    · intro h
      cases h
    · rintro ⟨gap, h, hg, -⟩
      exact absurd (List.append_eq_nil_iff.1 h.symm).1 hg.1
  | cons c cs =>
    unfold afterBlanks?
    constructor
    · intro h
      obtain ⟨hc, he⟩ := Option.ite_none_right_eq_some.1 h
      cases he
      refine ⟨c :: cs.takeWhile isBlank, ?_, ⟨by simp, ?_⟩, fun d hd => head?_dropWhile hd⟩
      · rw [List.cons_append, List.takeWhile_append_dropWhile]
      · refine allBlank_iff.2 fun d hd => ?_
        rcases List.mem_cons.1 hd with rfl | hd
        · exact hc
        · exact List.mem_takeWhile_imp hd
    · rintro ⟨gap, h, ⟨hne, hgap⟩, hrest⟩
      obtain ⟨d, gap, rfl⟩ := List.exists_cons_of_ne_nil hne
      rw [allBlank_iff, List.forall_mem_cons] at hgap
      rw [h]
      show (if isBlank d = true then some ((gap ++ rest).dropWhile isBlank) else none) = _
      rw [if_pos hgap.1, dropWhile_run hgap.2 hrest]

theorem head?_append_gap {gap rest : List Char} (hg : IsGap gap) {c : Char}
    (h : (gap ++ rest).head? = some c) : isBlank c = true := by
  obtain ⟨d, gap', rfl⟩ := List.exists_cons_of_ne_nil hg.1
  cases h
  exact allBlank_iff.1 hg.2 c (by simp)

/-- The cut into parts takes a text apart exactly as it is spelled. -/
theorem Parts.of?_eq_some_iff {cs : List Char} {p : Parts} :
    Parts.of? cs = some p ↔ p.Spelled cs := by
  constructor
  · intro hp
    obtain ⟨⟨path, rest⟩, hspan, hp⟩ := Option.bind_eq_some_iff.1 hp
    obtain ⟨rest', hblanks, h⟩ := Option.bind_eq_some_iff.1 hp
    obtain ⟨rfl, hpath, -⟩ := spanPath?_eq_some_iff.1 hspan
    obtain ⟨gap, rfl, hgap, -⟩ := afterBlanks?_eq_some_iff.1 hblanks
    obtain ⟨hop, h⟩ := Option.ite_none_left_eq_some.1 h
    have hop : IsWord (rest'.takeWhile isLatinLetter) :=
      ⟨fun he => hop (List.isEmpty_iff.2 he), fun c hc => List.mem_takeWhile_imp hc⟩
    have hsplit : rest'.takeWhile isLatinLetter ++ rest'.dropWhile isLatinLetter = rest' :=
      List.takeWhile_append_dropWhile
    clear hp hspan hblanks
    generalize rest'.takeWhile isLatinLetter = op, rest'.dropWhile isLatinLetter = tail at *
    subst hsplit
    cases tail with
    | nil =>
      cases h
      rw [List.append_nil, ← List.append_assoc]
      exact .bare hpath hgap hop
    | cons d tail =>
      obtain ⟨value, hvalue, h⟩ := Option.bind_eq_some_iff.1 h
      obtain ⟨gap', he, hgap', hhead⟩ := afterBlanks?_eq_some_iff.1 hvalue
      obtain ⟨hne, hp⟩ := Option.ite_none_left_eq_some.1 h
      cases hp
      rw [he]
      simp only [← List.append_assoc]
      exact .valued hpath hgap hop hgap' (fun h => hne (List.isEmpty_iff.2 h)) hhead
  · intro h
    cases h with
    | @bare path gap op hpath hgap hop =>
      have hspan : spanPath? (path ++ gap ++ op) = some (path, gap ++ op) :=
        spanPath?_eq_some_iff.2 ⟨List.append_assoc _ _ _, hpath,
          fun c hc => isPathChar_of_isBlank (head?_append_gap hgap hc)⟩
      have hblanks : afterBlanks? (gap ++ op) = some op :=
        afterBlanks?_eq_some_iff.2 ⟨gap, rfl, hgap, hop.head_not_blank⟩
      have htake : op.takeWhile isLatinLetter = op := List.takeWhile_eq_self_iff.2 hop.2
      have hdrop : op.dropWhile isLatinLetter = [] := List.dropWhile_eq_nil_iff.2 hop.2
      unfold Parts.of?
      rw [hspan]
      simp only [Option.bind_eq_bind, Option.bind_some, hblanks, htake, hdrop]
      rw [if_neg (by simpa using hop.1)]
    | @valued path gap op gap' value hpath hgap hop hgap' hne hhead =>
      have hrest : ∀ c, (gap' ++ value).head? = some c → isLatinLetter c = false :=
        fun c hc => isLatinLetter_of_isBlank (head?_append_gap hgap' hc)
      have hspan : spanPath? (path ++ gap ++ op ++ gap' ++ value) =
          some (path, gap ++ (op ++ (gap' ++ value))) :=
        spanPath?_eq_some_iff.2 ⟨by simp only [List.append_assoc], hpath,
          fun c hc => isPathChar_of_isBlank (head?_append_gap hgap hc)⟩
      have hblanks :
          afterBlanks? (gap ++ (op ++ (gap' ++ value))) = some (op ++ (gap' ++ value)) := by
        refine afterBlanks?_eq_some_iff.2 ⟨gap, rfl, hgap, fun c hc => hop.head_not_blank c ?_⟩
        rwa [List.head?_append_of_ne_nil _ hop.1] at hc
      have htake : (op ++ (gap' ++ value)).takeWhile isLatinLetter = op := takeWhile_run hop.2 hrest
      have hdrop : (op ++ (gap' ++ value)).dropWhile isLatinLetter = gap' ++ value :=
        dropWhile_run hop.2 hrest
      have hvalue : afterBlanks? (gap' ++ value) = some value :=
        afterBlanks?_eq_some_iff.2 ⟨gap', rfl, hgap', hhead⟩
      obtain ⟨d, tail, rfl⟩ := List.exists_cons_of_ne_nil hgap'.1
      simp only [List.cons_append] at hblanks htake hdrop hvalue
      unfold Parts.of?
      rw [hspan]
      simp only [Option.bind_eq_bind, Option.bind_some, List.cons_append, hblanks, htake, hdrop,
        hvalue]
      rw [if_neg (by simpa using hop.1), if_neg (by simpa using hne)]

theorem Parts.Spelled.head {p : Parts} {cs : List Char} (h : p.Spelled cs) :
    ∃ c rest, cs = c :: rest ∧ isPathStart c = true := by
  cases h with
  | bare hpath | valued hpath =>
    obtain ⟨c, rest, rfl, hc, -⟩ := hpath
    exact ⟨c, _, rfl, hc⟩

/-- What stands in front of a value holds no quote. -/
theorem quote_not_mem_head {path gap op : List Char} (hpath : IsPath path) (hgap : IsGap gap)
    (hop : IsWord op) : '"' ∉ path ++ gap ++ op := by
  simp only [List.mem_append, not_or]
  refine ⟨⟨?_, not_mem_of_allBlank (by decide) hgap.2⟩, fun h => (plain_of_letters hop.2 _ h).1 rfl⟩
  obtain ⟨c, rest, rfl, hc, hrest⟩ := hpath
  intro h
  rcases List.mem_cons.1 h with rfl | h
  · exact absurd hc (by decide)
  · exact absurd (hrest _ h) (by decide)

/-! ## What is read -/

/-- What the parts make: a presence test for the operator `pr`, which takes no value, and a
comparison for the other operators, which take one. -/
theorem Parts.filter_eq_ok_iff {p : Parts} {f : Filter} :
    p.filter = .ok f ↔
      (lowered (String.ofList p.operator) = Filter.presenceOperator ∧ p.value = [] ∧
        f = .present (String.ofList p.path)) ∨
      (lowered (String.ofList p.operator) ∈ Filter.comparisonOperators ∧ p.value ≠ [] ∧
        (p.value.head? = some '"' → Literal.isString p.value = true) ∧
        f = .compare (String.ofList p.path) (lowered (String.ofList p.operator))
          (String.ofList p.value)) := by
  have hpr : Filter.presenceOperator ∉ Filter.comparisonOperators := by decide
  unfold Parts.filter
  simp only [Bool.not_eq_true', List.isEmpty_iff]
  generalize lowered (String.ofList p.operator) = op
  by_cases hop : op = Filter.presenceOperator
  · subst hop
    rw [if_pos rfl]
    by_cases hv : p.value = []
    · rw [if_pos hv]
      constructor
      · intro h
        cases h
        exact .inl ⟨rfl, hv, rfl⟩
      · rintro (⟨-, -, rfl⟩ | ⟨hmem, -⟩)
        · rfl
        · exact absurd hmem hpr
    · rw [if_neg hv]
      constructor
      · intro h
        cases h
      · rintro (⟨-, hv', -⟩ | ⟨hmem, -⟩)
        · exact absurd hv' hv
        · exact absurd hmem hpr
  · rw [if_neg hop]
    constructor
    · intro h
      split_ifs at h with hmem hv hq
      cases h
      refine .inr ⟨by simpa using hmem, hv, fun hhead => ?_, rfl⟩
      by_contra hs
      exact hq ⟨hhead, by simpa using hs⟩
    · rintro (⟨h, -⟩ | ⟨hmem, hv, hq, rfl⟩)
      · exact absurd h hop
      · rw [if_neg (by simpa using hmem), if_neg hv, if_neg]
        rintro ⟨hhead, hs⟩
        rw [hq hhead] at hs
        cases hs

theorem read_eq_ok_iff {cs : List Char} {f : Filter} :
    read cs = .ok f ↔ ∃ p, Parts.Spelled p cs ∧ p.filter = .ok f := by
  unfold read
  simp only [← Parts.of?_eq_some_iff]
  cases Parts.of? cs with
  | none => simp
  | some p =>
    cases hf : p.filter <;> simp [hf, Except.mapError]

/-- A comparison value: not empty, without blanks at its ends, and a closed string if it begins with
a quote. -/
def IsValue (cs : List Char) : Prop :=
  cs ≠ [] ∧ Trimmed cs ∧ (cs.head? = some '"' → Literal.isString cs = true)

end Comparison

/-- A filter whose comparisons have well-formed paths, known operators and comparison values. -/
def Filter.WellFormed : Filter → Prop
  | .present path => Comparison.IsPath path.toList
  | .compare path op value =>
    Comparison.IsPath path.toList ∧ op ∈ Filter.comparisonOperators ∧
      Comparison.IsValue value.toList
  | .not inner => inner.WellFormed
  | .and l r => l.WellFormed ∧ r.WellFormed
  | .or l r => l.WellFormed ∧ r.WellFormed

namespace Comparison

theorem wellFormed_of_read {cs : List Char} (hcs : Trimmed cs) {f : Filter}
    (h : read cs = .ok f) : f.WellFormed := by
  obtain ⟨p, hp, hf⟩ := read_eq_ok_iff.1 h
  rcases Parts.filter_eq_ok_iff.1 hf with ⟨-, -, rfl⟩ | ⟨hop, hne, hq, rfl⟩
  · show IsPath (String.ofList p.path).toList
    rw [String.toList_ofList]
    cases hp with
    | bare hpath => exact hpath
    | valued hpath => exact hpath
  · refine ⟨?_, hop, ?_⟩ <;> rw [String.toList_ofList]
    · cases hp with
      | bare hpath => exact hpath
      | valued hpath => exact hpath
    · cases hp with
      | bare => exact absurd rfl hne
      | valued _ _ _ _ _ hhead =>
        refine ⟨hne, ⟨hhead, fun c hc => hcs.2 c ?_⟩, hq⟩
        rw [List.getLast?_append_of_ne_nil _ hne]
        exact hc

end Comparison

end ScimBridge
