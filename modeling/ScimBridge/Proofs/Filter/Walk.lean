import ScimBridge.Proofs.Filter.Pieces

/-!
# The texts that the reader works on

A walk reads a filter as the reader does (`outcome_reading`) and notes each text that it comes to and
what it does with it, in order, up to the text in which it finds a fault.

1. `Walk.part` to `Walk.expression`: the functions of the reader, each with a note of its text.
2. `KeptByCuts.reading`: what holds of a filter and of all that is cut out of such texts holds of
   each text that is visited.
3. `Walk.locates_expression`: a fault is found in a visited text, and never because an operand is
   missing.
4. `complete_reading`: the tests of an accepted filter are those that were read from the visited
   comparisons, in order.
-/

namespace ScimBridge

/-- Whether a fault is one of the parentheses and literals of a whole filter. -/
def FilterFault.isImbalance : FilterFault → Bool
  | .unbalancedParentheses | .unterminatedLiteral => true
  | _ => false

namespace Filter

/-! ## Visits -/

/-- What the reader does with a text that it comes to. -/
inductive Stage where
  /-- It reads it as an expression, one level of nesting deeper. -/
  | expression
  /-- It looks for its first connective. -/
  | chain
  /-- It reads it as a term of a chain. -/
  | term
  /-- It looks whether it is a group as a whole. -/
  | part
  /-- It reads it as a comparison. -/
  | comparison
  deriving DecidableEq, Repr

/-- A text that the reader comes to. -/
structure Visit where
  stage : Stage
  text : List Char
  deriving DecidableEq, Repr

/-- The texts that the reader comes to, in order, and what comes of it. -/
structure Walk where
  visits : List Visit
  outcome : Except FilterError Filter

namespace Walk

/-- Refuse without a further visit. -/
def refuse (e : FilterError) : Walk := ⟨[], .error e⟩

/-- A walk behind a visit. -/
def after (w : Walk) (v : Visit) : Walk := ⟨v :: w.visits, w.outcome⟩

/-- Change the filter that is read. -/
def map (w : Walk) (g : Filter → Filter) : Walk := ⟨w.visits, w.outcome.map g⟩

/-- Go on with the filter that is read. -/
def bind (w : Walk) (next : Filter → Walk) : Walk :=
  match w.outcome with
  | .error _ => w
  | .ok f => ⟨w.visits ++ (next f).visits, (next f).outcome⟩

variable (nested : List Char → Walk)

/-- A part that is neither empty nor a chain nor a group as a whole. -/
def simple (cs : List Char) : Walk :=
  match negated? cs with
  | some rest => (nested rest).map .not
  | none => ⟨[⟨.comparison, cs⟩], Comparison.read cs⟩

/-- A part without connectives at its top. -/
def part (whole cs : List Char) : Walk :=
  match _h : groupInterior? cs with
  | none => (simple nested cs).after ⟨.part, cs⟩
  | some interior =>
    let inner := trim interior
    if inner = [] then (refuse ⟨String.ofList whole, .emptyExpression⟩).after ⟨.part, cs⟩
    else if (Connective.first? inner).isSome then (nested inner).after ⟨.part, cs⟩
    else (part whole inner).after ⟨.part, cs⟩
termination_by cs.length
decreasing_by
  exact Nat.lt_of_le_of_lt (length_trim_le _) (length_groupInterior_lt _h)

/-- A term of a chain. -/
def term (cs : List Char) : Walk := (part nested cs (trim cs)).after ⟨.term, cs⟩

/-- A chain of terms, with the terms that are read already. -/
def chain (terms : List (Filter × Connective)) (cs : List Char) : Walk :=
  match _h : Connective.first? cs with
  | none => ((term nested cs).map (joinChain terms)).after ⟨.chain, cs⟩
  | some (i, w) =>
    let left := cs.take i
    let right := cs.drop (i + w.word.length)
    if allBlank left || allBlank right then
      (refuse ⟨String.ofList cs, .missingOperand w⟩).after ⟨.chain, cs⟩
    else
      ((term nested left).bind fun f => chain ((f, w) :: terms) (trim right)).after ⟨.chain, cs⟩
termination_by cs.length
decreasing_by
  have hi := Connective.first?_lt _h
  have hw : 0 < w.word.length := by cases w <;> decide
  have ht := length_trim_le right
  simp only [right, List.length_drop] at ht ⊢
  omega

/-- An expression with at most a number of levels of nesting. -/
def expression : Nat → List Char → Walk
  | 0, cs => (refuse ⟨String.ofList cs, .nestedTooDeeply⟩).after ⟨.expression, cs⟩
  | levels + 1, cs =>
    if trim cs = [] then (refuse ⟨String.ofList cs, .emptyExpression⟩).after ⟨.expression, cs⟩
    else (chain (expression levels) [] (trim cs)).after ⟨.expression, cs⟩

end Walk

/-- Read a filter and note the texts on the way. -/
def reading (text : String) : Walk :=
  let cs := text.toList
  if allBlank cs then .refuse ⟨text, .emptyExpression⟩
  else match balanceFault? cs with
    | some fault => .refuse ⟨text, fault⟩
    | none =>
      let w := Walk.expression nestingLimit cs
      ⟨w.visits, w.outcome.mapError (nameWhole cs)⟩

/-! ## A walk reads as the reader does -/

namespace Walk

theorem bind_of_error {w : Walk} {e : FilterError} (h : w.outcome = .error e)
    (next : Filter → Walk) : w.bind next = w := by
  unfold bind
  rw [h]

theorem bind_of_ok {w : Walk} {f : Filter} (h : w.outcome = .ok f) (next : Filter → Walk) :
    w.bind next = ⟨w.visits ++ (next f).visits, (next f).outcome⟩ := by
  unfold bind
  rw [h]

variable (nested : List Char → Walk)

theorem part_of_none {cs : List Char} (h : groupInterior? cs = none) (whole : List Char) :
    part nested whole cs = (simple nested cs).after ⟨.part, cs⟩ := by
  rw [part]
  split
  · rfl
  · rename_i h'
    cases h.symm.trans h'

theorem part_of_group {cs interior : List Char} (h : groupInterior? cs = some interior)
    (whole : List Char) :
    part nested whole cs =
      if trim interior = [] then (refuse ⟨String.ofList whole, .emptyExpression⟩).after ⟨.part, cs⟩
      else if (Connective.first? (trim interior)).isSome then
        (nested (trim interior)).after ⟨.part, cs⟩
      else (part nested whole (trim interior)).after ⟨.part, cs⟩ := by
  rw [part]
  split
  · rename_i h'
    cases h.symm.trans h'
  · rename_i h'
    cases h.symm.trans h'
    rfl

theorem chain_of_none {cs : List Char} (h : Connective.first? cs = none)
    (terms : List (Filter × Connective)) :
    chain nested terms cs = ((term nested cs).map (joinChain terms)).after ⟨.chain, cs⟩ := by
  rw [chain]
  split
  · rfl
  · rename_i h'
    cases h.symm.trans h'

theorem chain_of_some {cs : List Char} {i : Nat} {w : Connective}
    (h : Connective.first? cs = some (i, w)) (terms : List (Filter × Connective)) :
    chain nested terms cs =
      if allBlank (cs.take i) || allBlank (cs.drop (i + w.word.length)) then
        (refuse ⟨String.ofList cs, .missingOperand w⟩).after ⟨.chain, cs⟩
      else
        ((term nested (cs.take i)).bind fun f =>
          chain nested ((f, w) :: terms) (trim (cs.drop (i + w.word.length)))).after
            ⟨.chain, cs⟩ := by
  rw [chain]
  split
  · rename_i h'
    cases h.symm.trans h'
  · rename_i h'
    cases h.symm.trans h'
    rfl

/-- The reader of what is nested. -/
def reader (cs : List Char) : Except FilterError Filter := (nested cs).outcome

theorem outcome_simple (cs : List Char) :
    (simple nested cs).outcome = readSimple (reader nested) cs := by
  unfold simple readSimple
  cases negated? cs <;> rfl

theorem outcome_part (whole cs : List Char) :
    (part nested whole cs).outcome = readPart (reader nested) whole cs := by
  fun_induction readPart (reader nested) whole cs with
  | case1 cs hg =>
    rw [part_of_none nested hg]
    exact outcome_simple nested cs
  | case2 cs interior hg inner hi =>
    rw [part_of_group nested hg, if_pos hi]
    rfl
  | case3 cs interior hg inner hi hs =>
    rw [part_of_group nested hg, if_neg hi, if_pos hs]
    rfl
  | case4 cs interior hg inner hi hs ih =>
    rw [part_of_group nested hg, if_neg hi, if_neg hs]
    exact ih

theorem outcome_term (cs : List Char) :
    (term nested cs).outcome = readTerm (reader nested) cs :=
  outcome_part nested cs (trim cs)

theorem outcome_chain (terms : List (Filter × Connective)) (cs : List Char) :
    (chain nested terms cs).outcome = readChain (reader nested) terms cs := by
  fun_induction readChain (reader nested) terms cs with
  | case1 terms cs hc =>
    rw [chain_of_none nested hc]
    exact congrArg (Except.map _) (outcome_term nested cs)
  | case2 terms cs i w hc left right hb =>
    rw [chain_of_some nested hc, if_pos hb]
    rfl
  | case3 terms cs i w hc left right hb e he =>
    have hterm := (outcome_term nested left).trans he
    rw [chain_of_some nested hc, if_neg hb, bind_of_error hterm]
    exact hterm
  | case4 terms cs i w hc left right hb f hf ih =>
    have hterm := (outcome_term nested left).trans hf
    rw [chain_of_some nested hc, if_neg hb, bind_of_ok hterm]
    exact ih

theorem outcome_expression (levels : Nat) (cs : List Char) :
    (expression levels cs).outcome = readExpression levels cs := by
  induction levels generalizing cs with
  | zero => rfl
  | succ levels ih =>
    unfold expression readExpression
    rw [← (funext ih : reader (expression levels) = readExpression levels)]
    by_cases hnil : trim cs = []
    · rw [if_pos hnil]
      exact (if_pos hnil).symm
    · rw [if_neg hnil]
      exact (outcome_chain (expression levels) [] (trim cs)).trans (if_neg hnil).symm

end Walk

/-- A walk comes to what the reader comes to. -/
theorem outcome_reading (text : String) : (reading text).outcome = parse text := by
  unfold reading parse
  simp only [← Walk.outcome_expression]
  split
  · rfl
  · cases balanceFault? text.toList <;> rfl

/-! ## What holds of every visited text -/

/-- What holds of a text holds of all that the reader cuts out of it. -/
structure KeptByCuts (P : List Char → Prop) : Prop where
  trim {cs : List Char} : P cs → P (trim cs)
  left {cs : List Char} {i : Nat} {w : Connective} :
    P cs → Connective.first? cs = some (i, w) → P (cs.take i)
  right {cs : List Char} {i : Nat} {w : Connective} :
    P cs → Connective.first? cs = some (i, w) → P (cs.drop (i + w.word.length))
  interior {cs inner : List Char} : P cs → groupInterior? cs = some inner → P inner
  rest {cs rest : List Char} : P cs → negated? cs = some rest → P rest

namespace Walk

/-- Every visited text has a property. -/
def All (P : List Char → Prop) (w : Walk) : Prop := ∀ v ∈ w.visits, P v.text

variable {P : List Char → Prop}

theorem All.refuse (e : FilterError) : All P (refuse e) := fun _ h => nomatch h

theorem All.after {w : Walk} (h : All P w) {v : Visit} (hv : P v.text) : All P (w.after v) :=
  List.forall_mem_cons.2 ⟨hv, h⟩

theorem All.map {w : Walk} (h : All P w) (g : Filter → Filter) : All P (w.map g) := h

theorem All.bind {w : Walk} (h : All P w) {next : Filter → Walk} (hnext : ∀ f, All P (next f)) :
    All P (w.bind next) := by
  unfold Walk.bind
  split
  · exact h
  · exact List.forall_mem_append.2 ⟨h, hnext _⟩

section Kept

variable {nested : List Char → Walk} (hP : KeptByCuts P) (hnested : ∀ cs, P cs → All P (nested cs))

include hP hnested

theorem all_simple {cs : List Char} (h : P cs) : All P (simple nested cs) := by
  unfold simple
  split
  · rename_i hn
    exact (hnested _ (hP.rest h hn)).map _
  · exact List.forall_mem_singleton.2 h

theorem all_part {whole cs : List Char} (h : P cs) : All P (part nested whole cs) := by
  fun_induction part nested whole cs with
  | case1 cs hg => exact (all_simple hP hnested h).after h
  | case2 cs interior hg inner hi => exact (All.refuse _).after h
  | case3 cs interior hg inner hi hs => exact (hnested inner (hP.trim (hP.interior h hg))).after h
  | case4 cs interior hg inner hi hs ih => exact (ih (hP.trim (hP.interior h hg))).after h

theorem all_term {cs : List Char} (h : P cs) : All P (term nested cs) :=
  (all_part hP hnested (hP.trim h)).after h

theorem all_chain {terms : List (Filter × Connective)} {cs : List Char} (h : P cs) :
    All P (chain nested terms cs) := by
  fun_induction chain nested terms cs with
  | case1 terms cs hc => exact ((all_term hP hnested h).map _).after h
  | case2 terms cs i w hc left right hb => exact (All.refuse _).after h
  | case3 terms cs i w hc left right hb ih =>
    refine ((all_term hP hnested (hP.left h hc)).bind fun f => ?_).after h
    exact ih f (hP.trim (hP.right h hc))

end Kept

theorem all_expression (hP : KeptByCuts P) (levels : Nat) {cs : List Char} (h : P cs) :
    All P (expression levels cs) := by
  induction levels generalizing cs with
  | zero => exact (All.refuse _).after h
  | succ levels ih =>
    unfold expression
    split
    · exact (All.refuse _).after h
    · exact (all_chain hP (fun _ => ih) (hP.trim h)).after h

end Walk

/-- What holds of a filter and of all that is cut out of such texts holds of every visited text. -/
theorem KeptByCuts.reading {P : List Char → Prop} (hP : KeptByCuts P) {text : String}
    (h : P text.toList) : (reading text).All P := by
  unfold Filter.reading
  dsimp only
  split
  · exact Walk.All.refuse _
  · split
    · exact Walk.All.refuse _
    · exact Walk.all_expression hP nestingLimit h

/-! ## Where faults are found -/

/-- Between the ends of a trimmed text, a connective has something on both sides. -/
theorem sides_not_blank {cs : List Char} (ht : trim cs = cs) {i : Nat} {w : Connective}
    (hc : Connective.first? cs = some (i, w)) :
    ¬ (allBlank (cs.take i) || allBlank (cs.drop (i + w.word.length))) = true := by
  have htrimmed := trimmed_of_trim_eq ht
  rw [Bool.or_eq_true, not_or]
  constructor
  · intro hb
    have hfollow := Connective.mayFollow_of_search? hc
    rw [Option.or_none] at hfollow
    cases cs with
    | nil => cases hc
    | cons c rest =>
      cases i with
      | zero => cases hfollow
      | succ i =>
        have hblank := allBlank_iff.1 hb c (by simp)
        rw [htrimmed.1 c rfl] at hblank
        cases hblank
  · intro hb
    have hlt := Connective.search?_end_lt hc
    have hne : cs.drop (i + w.word.length) ≠ [] := by
      rw [Ne, List.drop_eq_nil_iff]
      omega
    have hlast := List.getLast?_eq_some_getLast hne
    have hblank := allBlank_iff.1 hb _ (List.getLast_mem hne)
    rw [htrimmed.2 _ (by rw [← hlast, List.getLast?_drop, if_neg (by omega)])] at hblank
    cases hblank

/-- A fault that is found in a visited text, and not because of parentheses, literals or a missing
operand. -/
structure Located (visits : List Visit) (e : FilterError) : Prop where
  visited : ∃ v ∈ visits, e.fragment = String.ofList v.text
  balanced : e.fault.isImbalance = false
  operands : ∀ w, e.fault ≠ .missingOperand w

theorem Located.mono {visits visits' : List Visit} {e : FilterError} (h : Located visits e)
    (hsub : visits ⊆ visits') : Located visits' e := by
  obtain ⟨v, hv, he⟩ := h.visited
  exact ⟨⟨v, hsub hv, he⟩, h.balanced, h.operands⟩

theorem located_of_read {cs : List Char} {e : FilterError} (h : Comparison.read cs = .error e) :
    Located [⟨.comparison, cs⟩] e := by
  unfold Comparison.read at h
  split at h
  · cases h
    exact ⟨⟨_, List.mem_singleton_self _, rfl⟩, rfl, fun _ h => nomatch h⟩
  · obtain ⟨fault, hf, rfl⟩ := mapError_eq_error_iff.1 h
    unfold Comparison.Parts.filter at hf
    dsimp only at hf
    refine ⟨⟨_, List.mem_singleton_self _, rfl⟩, ?_, ?_⟩
    · split_ifs at hf <;> cases hf <;> rfl
    · split_ifs at hf <;> cases hf <;> simp

namespace Walk

/-- Every fault of the walk is found in one of its texts. -/
def Locates (w : Walk) : Prop := ∀ e, w.outcome = .error e → Located w.visits e

theorem Locates.after {w : Walk} (h : w.Locates) (v : Visit) : (w.after v).Locates :=
  fun e he => (h e he).mono (List.subset_cons_self v w.visits)

theorem Locates.map {w : Walk} (h : w.Locates) (g : Filter → Filter) : (w.map g).Locates :=
  fun e he => h e (map_eq_error_iff.1 he)

theorem Locates.bind {w : Walk} (h : w.Locates) {next : Filter → Walk}
    (hnext : ∀ f, w.outcome = .ok f → (next f).Locates) : (w.bind next).Locates := by
  rcases ok_or_error w.outcome with ⟨f, hf⟩ | ⟨e, he⟩
  · rw [bind_of_ok hf]
    exact fun e he => (hnext f hf e he).mono (List.subset_append_right _ _)
  · rwa [bind_of_error he]

/-- A walk that stops at once in a text. -/
theorem locates_refuse {v : Visit} {fault : FilterFault} (hb : fault.isImbalance = false)
    (ho : ∀ w, fault ≠ .missingOperand w) :
    ((refuse ⟨String.ofList v.text, fault⟩).after v).Locates := by
  intro e he
  cases he
  exact ⟨⟨v, List.mem_cons_self, rfl⟩, hb, ho⟩

section Located

variable {nested : List Char → Walk} (hnested : ∀ cs, (nested cs).Locates)

include hnested

theorem locates_simple (cs : List Char) : (simple nested cs).Locates := by
  unfold simple
  split
  · exact (hnested _).map _
  · exact fun e => located_of_read

/-- What is refused for its empty parentheses is the term as it was first met. -/
theorem locates_part (whole cs : List Char) :
    ((part nested whole cs).after ⟨.term, whole⟩).Locates := by
  fun_induction part nested whole cs with
  | case1 cs hg => exact ((locates_simple hnested cs).after _).after _
  | case2 cs interior hg inner hi =>
    intro e he
    cases he
    exact ⟨⟨⟨.term, whole⟩, List.mem_cons_self, rfl⟩, rfl, fun _ h => nomatch h⟩
  | case3 cs interior hg inner hi hs => exact ((hnested inner).after _).after _
  | case4 cs interior hg inner hi hs ih =>
    intro e he
    refine (ih e he).mono fun v hv => ?_
    rcases List.mem_cons.1 hv with rfl | hv
    · exact List.mem_cons_self
    · exact List.mem_cons_of_mem _ (List.mem_cons_of_mem _ hv)

theorem locates_chain {terms : List (Filter × Connective)} {cs : List Char} (ht : trim cs = cs) :
    (chain nested terms cs).Locates := by
  fun_induction chain nested terms cs with
  | case1 terms cs hc => exact ((locates_part hnested cs (trim cs)).map _).after _
  | case2 terms cs i w hc left right hb => exact absurd hb (sides_not_blank ht hc)
  | case3 terms cs i w hc left right hb ih =>
    exact ((locates_part hnested left (trim left)).bind
      fun f _ => ih f (trim_trim right)).after _

end Located

theorem locates_expression (levels : Nat) (cs : List Char) : (expression levels cs).Locates := by
  induction levels generalizing cs with
  | zero => exact locates_refuse rfl fun _ h => nomatch h
  | succ levels ih =>
    unfold expression
    split
    · exact locates_refuse rfl fun _ h => nomatch h
    · exact (locates_chain ih (trim_trim cs)).after _

end Walk

/-! ## The tests of a filter -/

/-- The presence tests and comparisons of a filter, from left to right. -/
def tests : Filter → List Filter
  | .not inner => inner.tests
  | .and l r => l.tests ++ r.tests
  | .or l r => l.tests ++ r.tests
  | f => [f]

/-- The test that is read at a visit. -/
def Visit.test? (v : Visit) : Option Filter :=
  if v.stage = .comparison then (Comparison.read v.text).toOption else none

theorem tests_joinChain (terms : List (Filter × Connective)) (last : Filter) :
    (joinChain terms last).tests =
      terms.reverse.flatMap (fun p => p.1.tests) ++ last.tests := by
  induction terms generalizing last with
  | nil => rfl
  | cons p terms ih =>
    obtain ⟨f, w⟩ := p
    have hjoin : (w.join f last).tests = f.tests ++ last.tests := by cases w <;> rfl
    show (joinChain terms (w.join f last)).tests = _
    rw [ih, hjoin]
    simp

theorem tests_of_read {cs : List Char} {f : Filter} (h : Comparison.read cs = .ok f) :
    f.tests = [f] := by
  obtain ⟨p, -, hf⟩ := Comparison.read_eq_ok_iff.1 h
  rcases Comparison.Parts.filter_eq_ok_iff.1 hf with ⟨-, -, rfl⟩ | ⟨-, -, -, rfl⟩ <;> rfl

namespace Walk

/-- The tests that are read on a walk. -/
def tests (w : Walk) : List Filter := w.visits.filterMap Visit.test?

theorem tests_after (w : Walk) {v : Visit} (hv : v.stage ≠ .comparison) :
    (w.after v).tests = w.tests := by
  have hnone : v.test? = none := if_neg hv
  exact List.filterMap_cons_none hnone

/-- A filter that is read on a walk has the tests that are read on it. -/
def Complete (w : Walk) : Prop := ∀ f, w.outcome = .ok f → w.tests = f.tests

theorem Complete.after {w : Walk} (h : w.Complete) {v : Visit} (hv : v.stage ≠ .comparison) :
    (w.after v).Complete :=
  fun f hf => (tests_after w hv).trans (h f hf)

section Complete

variable {nested : List Char → Walk} (hnested : ∀ cs, (nested cs).Complete)

include hnested

theorem complete_simple (cs : List Char) : (simple nested cs).Complete := by
  unfold simple
  split
  · intro f hf
    obtain ⟨g, hg, rfl⟩ := map_eq_ok_iff.1 hf
    exact hnested _ g hg
  · intro f hf
    have hread : Comparison.read cs = .ok f := hf
    rw [tests_of_read hread]
    simp [tests, Visit.test?, hread, Except.toOption]

theorem complete_part (whole cs : List Char) : (part nested whole cs).Complete := by
  fun_induction part nested whole cs with
  | case1 cs hg => exact (complete_simple hnested cs).after (by simp)
  | case2 cs interior hg inner hi => exact fun f hf => nomatch hf
  | case3 cs interior hg inner hi hs => exact (hnested inner).after (by simp)
  | case4 cs interior hg inner hi hs ih => exact ih.after (by simp)

theorem complete_term (cs : List Char) : (term nested cs).Complete :=
  (complete_part hnested cs (trim cs)).after (by simp)

/-- The terms that were read before stand in front of those that are read on the walk. -/
theorem tests_of_chain (terms : List (Filter × Connective)) (cs : List Char) :
    ∀ f, (chain nested terms cs).outcome = .ok f →
      f.tests = terms.reverse.flatMap (fun p => p.1.tests) ++ (chain nested terms cs).tests := by
  fun_induction chain nested terms cs with
  | case1 terms cs hc =>
    intro f hf
    obtain ⟨g, hg, rfl⟩ := map_eq_ok_iff.1 hf
    rw [tests_joinChain, ← complete_term hnested cs g hg, tests_after _ (by simp)]
    rfl
  | case2 => exact fun f hf => nomatch hf
  | case3 terms cs i w hc left right hb ih =>
    intro f hf
    rcases ok_or_error (term nested left).outcome with ⟨g, hg⟩ | ⟨e, he⟩
    · rw [bind_of_ok hg] at hf ⊢
      have hterm := complete_term hnested left g hg
      rw [ih g f hf, tests_after _ (by simp)]
      simp only [tests, List.filterMap_append] at hterm ⊢
      simp [hterm]
    · rw [bind_of_error he] at hf
      cases he.symm.trans hf

end Complete

theorem complete_expression (levels : Nat) (cs : List Char) :
    (expression levels cs).Complete := by
  induction levels generalizing cs with
  | zero => exact fun f hf => nomatch hf
  | succ levels ih =>
    unfold expression
    split
    · exact fun f hf => nomatch hf
    · intro f hf
      rw [tests_after _ (by simp), tests_of_chain ih [] _ f hf]
      rfl

end Walk

/-- The tests of an accepted filter are those that are read from the visited comparisons. -/
theorem complete_reading (text : String) : (reading text).Complete := by
  unfold reading
  dsimp only
  split
  · exact fun f hf => nomatch hf
  · split
    · exact fun f hf => nomatch hf
    · exact fun f hf =>
        Walk.complete_expression nestingLimit text.toList f (mapError_eq_ok_iff.1 hf)

end Filter

end ScimBridge
