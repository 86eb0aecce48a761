import ScimBridge.Filter.Cursor
import ScimBridge.Filter.Literal
import ScimBridge.Proofs.Text.LowerCase

/-!
# Balanced texts

A text is balanced when it is made of plain characters, closed string literals and groups in
parentheses that are balanced inside. The cursor passes over a balanced text and stands as it stood
in front of it (`behind_balanced`), and that is what the check of a filter asks for
(`balanceFault?_eq_none_iff`).

1. `behind_balanced`: the cursor over contents, literals and groups.
2. `fault?_balanced`, `closes_of_fault?`: the check passes balanced texts, and what it passes is a
   balanced text behind which every open group is closed.
-/

namespace ScimBridge

/-! ## The content of a literal -/

namespace Literal

/-- What may stand between the quotes of a literal: no quote on its own, and no backslash without a
character behind it. -/
inductive Content : List Char → Prop
  | nil : Content []
  | plain {c : Char} {cs : List Char} : c ≠ '"' → c ≠ '\\' → Content cs → Content (c :: cs)
  | escaped {c : Char} {cs : List Char} : Content cs → Content ('\\' :: c :: cs)

/-- A content between its quotes. -/
def enclosed (b : List Char) : List Char := '"' :: b ++ ['"']

theorem getLast?_enclosed (b : List Char) : (enclosed b).getLast? = some '"' :=
  List.getLast?_concat

theorem length_enclosed (b : List Char) : (enclosed b).length = b.length + 2 := by
  simp [enclosed]

/-- Escaping makes a content of every text. -/
theorem content_escape (cs : List Char) : Content (escape cs) := by
  induction cs with
  | nil => exact .nil
  | cons c cs ih =>
    unfold escape
    split
    · exact .escaped ih
    · rename_i h
      rw [not_or] at h
      exact .plain h.1 h.2 ih

theorem afterString?_content {b : List Char} (hb : Content b) (rest : List Char) :
    afterString? (b ++ '"' :: rest) = some rest := by
  induction hb with
  | nil => rfl
  | @plain c cs hq hs _ ih =>
    rw [List.cons_append,
      afterString?.eq_5 _ _ hq (fun _ _ h => absurd h hs) (fun h => absurd h hs)]
    exact ih
  | escaped _ ih =>
    rw [List.cons_append, List.cons_append, afterString?]
    exact ih

/-- What closes a string has a content in front of it. -/
theorem exists_content_of_afterString? {cs rest : List Char} (h : afterString? cs = some rest) :
    ∃ b, Content b ∧ cs = b ++ '"' :: rest := by
  fun_induction afterString? cs with
  | case1 => cases h
  | case2 tail =>
    cases h
    exact ⟨[], .nil, rfl⟩
  | case3 c tail ih =>
    obtain ⟨b, hb, rfl⟩ := ih h
    exact ⟨'\\' :: c :: b, .escaped hb, rfl⟩
  | case4 => cases h
  | case5 c tail hq hs he ih =>
    obtain ⟨b, hb, rfl⟩ := ih h
    refine ⟨c :: b, .plain hq ?_ hb, rfl⟩
    rintro rfl
    cases b with
    | nil => exact hs _ _ rfl rfl
    | cons d b => exact hs _ _ rfl rfl

end Literal

/-! ## Balanced texts and the cursor -/

/-- Texts whose literals are closed and whose parentheses match. -/
inductive Balanced : List Char → Prop
  | nil : Balanced []
  | plain {c : Char} {cs : List Char} :
      c ≠ '"' → c ≠ '(' → c ≠ ')' → Balanced cs → Balanced (c :: cs)
  | literal {b cs : List Char} :
      Literal.Content b → Balanced cs → Balanced (Literal.enclosed b ++ cs)
  | group {inner cs : List Char} :
      Balanced inner → Balanced cs → Balanced ('(' :: inner ++ ')' :: cs)

theorem Balanced.append {cs ds : List Char} (hc : Balanced cs) (hd : Balanced ds) :
    Balanced (cs ++ ds) := by
  induction hc with
  | nil => exact hd
  | plain hq ho hs _ ih => exact .plain hq ho hs ih
  | literal hb _ ih =>
    rw [List.append_assoc]
    exact .literal hb ih
  | group hi _ _ ih =>
    rw [List.append_assoc]
    exact .group hi ih

/-- A text without quotes and parentheses is balanced. -/
theorem balanced_of_plain {cs : List Char} (h : ∀ c ∈ cs, c ≠ '"' ∧ c ≠ '(' ∧ c ≠ ')') :
    Balanced cs := by
  induction cs with
  | nil => exact .nil
  | cons c cs ih =>
    obtain ⟨hq, ho, hs⟩ := h c (by simp)
    exact .plain hq ho hs (ih fun d hd => h d (List.mem_cons_of_mem c hd))

theorem balanced_of_allBlank {cs : List Char} (h : allBlank cs = true) : Balanced cs :=
  balanced_of_plain fun c hc =>
    have hb : isBlank c = true := List.all_eq_true.1 h c hc
    ⟨isBlank_ne hb (by decide), isBlank_ne hb (by decide), isBlank_ne hb (by decide)⟩

namespace Cursor

theorem behind_cons (cur : Cursor) (c : Char) (cs : List Char) :
    cur.behind (c :: cs) = (cur.step c).behind cs := rfl

theorem behind_append (cur : Cursor) (cs ds : List Char) :
    cur.behind (cs ++ ds) = (cur.behind cs).behind ds :=
  List.foldl_append

theorem step_quote (d : Int) : (⟨.outside, d⟩ : Cursor).step '"' = ⟨.inside, d⟩ := rfl

theorem step_open (d : Int) : (⟨.outside, d⟩ : Cursor).step '(' = ⟨.outside, d + 1⟩ := rfl

theorem step_close (d : Int) : (⟨.outside, d⟩ : Cursor).step ')' = ⟨.outside, d - 1⟩ := rfl

theorem step_unquote (d : Int) : (⟨.inside, d⟩ : Cursor).step '"' = ⟨.outside, d⟩ := rfl

theorem step_plain {c : Char} (hq : c ≠ '"') (ho : c ≠ '(') (hs : c ≠ ')') (d : Int) :
    (⟨.outside, d⟩ : Cursor).step c = ⟨.outside, d⟩ := by
  simp [step, Place.next, hq, ho, hs]

theorem step_content {c : Char} (hq : c ≠ '"') (hs : c ≠ '\\') (d : Int) :
    (⟨.inside, d⟩ : Cursor).step c = ⟨.inside, d⟩ := by
  simp [step, Place.next, hq, hs]

theorem step_backslash (d : Int) : (⟨.inside, d⟩ : Cursor).step '\\' = ⟨.escaped, d⟩ := rfl

theorem step_escaped (c : Char) (d : Int) : (⟨.escaped, d⟩ : Cursor).step c = ⟨.inside, d⟩ := rfl

theorem behind_content {b : List Char} (hb : Literal.Content b) (d : Int) :
    (⟨.inside, d⟩ : Cursor).behind b = ⟨.inside, d⟩ := by
  induction hb with
  | nil => rfl
  | plain hq hs _ ih => rw [behind_cons, step_content hq hs, ih]
  | escaped _ ih => rw [behind_cons, behind_cons, step_backslash, step_escaped, ih]

theorem behind_enclosed {b : List Char} (hb : Literal.Content b) (d : Int) :
    (⟨.outside, d⟩ : Cursor).behind (Literal.enclosed b) = ⟨.outside, d⟩ := by
  rw [Literal.enclosed, List.cons_append, behind_cons, step_quote, behind_append,
    behind_content hb]
  rfl

/-- Behind a balanced text the cursor stands as it stood in front of it. -/
theorem behind_balanced {cs : List Char} (h : Balanced cs) (d : Int) :
    (⟨.outside, d⟩ : Cursor).behind cs = ⟨.outside, d⟩ := by
  induction h generalizing d with
  | nil => rfl
  | plain hq ho hs _ ih => rw [behind_cons, step_plain hq ho hs, ih]
  | literal hb _ ih => rw [behind_append, behind_enclosed hb, ih]
  | group _ _ ihi ih =>
    rw [List.cons_append, behind_cons, step_open, behind_append, ihi, behind_cons, step_close,
      Int.add_sub_cancel, ih]

/-! ## The check of parentheses and literals -/

theorem fault?_cons (cur : Cursor) (c : Char) (cs : List Char) :
    cur.fault? (c :: cs) =
      if (cur.step c).depth < 0 then some .unbalancedParentheses else (cur.step c).fault? cs := rfl

theorem fault?_step {cur next : Cursor} {c : Char} (hs : cur.step c = next) (h : 0 ≤ next.depth)
    (cs : List Char) : cur.fault? (c :: cs) = next.fault? cs := by
  rw [fault?_cons, hs, if_neg (Int.not_lt.2 h)]

/-- What the check says of a text depends on its end only by what it says of the end. -/
theorem fault?_append_congr {cur : Cursor} {cs ds es : List Char}
    (h : (cur.behind cs).fault? ds = (cur.behind cs).fault? es) :
    cur.fault? (cs ++ ds) = cur.fault? (cs ++ es) := by
  induction cs generalizing cur with
  | nil => exact h
  | cons c cs ih => rw [List.cons_append, List.cons_append, fault?_cons, fault?_cons, ih h]

section Depth

variable {d : Int} (hd : 0 ≤ d)

include hd

theorem fault?_content {b : List Char} (hb : Literal.Content b) (rest : List Char) :
    (⟨.inside, d⟩ : Cursor).fault? (b ++ rest) = (⟨.inside, d⟩ : Cursor).fault? rest := by
  induction hb with
  | nil => rfl
  | plain hq hs _ ih =>
    rw [List.cons_append, fault?_step (step_content hq hs d) hd, ih]
  | escaped _ ih =>
    rw [List.cons_append, List.cons_append, fault?_step (step_backslash d) hd,
      fault?_step (step_escaped _ d) hd, ih]

theorem fault?_enclosed {b : List Char} (hb : Literal.Content b) (rest : List Char) :
    (⟨.outside, d⟩ : Cursor).fault? (Literal.enclosed b ++ rest) =
      (⟨.outside, d⟩ : Cursor).fault? rest := by
  rw [Literal.enclosed, List.cons_append, List.cons_append, List.append_assoc,
    fault?_step (step_quote d) hd, fault?_content hd hb, List.singleton_append,
    fault?_step (step_unquote d) hd]

theorem fault?_balanced {cs : List Char} (h : Balanced cs) (rest : List Char) :
    (⟨.outside, d⟩ : Cursor).fault? (cs ++ rest) = (⟨.outside, d⟩ : Cursor).fault? rest := by
  induction h generalizing d rest with
  | nil => rfl
  | plain hq ho hs _ ih =>
    rw [List.cons_append, fault?_step (step_plain hq ho hs d) hd, ih hd]
  | literal hb _ ih => rw [List.append_assoc, fault?_enclosed hd hb, ih hd]
  | @group inner cs _ _ ihi ih =>
    have ho : 0 ≤ d + 1 := by omega
    have hs : 0 ≤ d + 1 - 1 := by omega
    rw [List.append_assoc, List.cons_append, fault?_step (step_open d) ho, ihi ho, List.cons_append,
      fault?_step (step_close (d + 1)) hs, Int.add_sub_cancel, ih hd]

end Depth

/-- A text that the check passes from inside a literal closes that literal first. -/
theorem exists_content_of_fault? {cs : List Char} {d : Nat}
    (h : (⟨.inside, d⟩ : Cursor).fault? cs = none) :
    ∃ b rest, Literal.Content b ∧ cs = b ++ '"' :: rest ∧
      (⟨.outside, d⟩ : Cursor).fault? rest = none := by
  have hd : 0 ≤ (d : Int) := by omega
  induction cs using Literal.afterString?.induct with
  | case1 => simp [fault?] at h
  | case2 rest =>
    rw [fault?_step (step_unquote _) hd] at h
    exact ⟨[], rest, .nil, rfl, h⟩
  | case3 c tail ih =>
    rw [fault?_step (step_backslash _) hd, fault?_step (step_escaped c _) hd] at h
    obtain ⟨b, rest, hb, rfl, hr⟩ := ih h
    exact ⟨'\\' :: c :: b, rest, .escaped hb, rfl, hr⟩
  | case4 =>
    rw [fault?_step (step_backslash _) hd] at h
    simp [fault?] at h
  | case5 c tail hq hs he ih =>
    have hc : c ≠ '\\' := by
      rintro rfl
      cases tail with
      | nil => exact he rfl rfl
      | cons e tail => exact hs e tail rfl rfl
    rw [fault?_step (step_content hq hc _) hd] at h
    obtain ⟨b, rest, hb, rfl, hr⟩ := ih h
    exact ⟨c :: b, rest, .plain hq hc hb, rfl, hr⟩

/-- A text that closes a number of open parentheses and is balanced otherwise. -/
def Closes : Nat → List Char → Prop
  | 0, cs => Balanced cs
  | d + 1, cs => ∃ b rest, Balanced b ∧ cs = b ++ ')' :: rest ∧ Closes d rest

theorem Closes.append {d : Nat} {a cs : List Char} (ha : Balanced a) (h : Closes d cs) :
    Closes d (a ++ cs) := by
  cases d with
  | zero => exact ha.append h
  | succ d =>
    obtain ⟨b, rest, hb, rfl, hr⟩ := h
    exact ⟨a ++ b, rest, ha.append hb, by simp, hr⟩

/-- The induction is on the length, since a literal is passed as a whole. -/
theorem closes_of_fault? (n : Nat) : ∀ {d : Nat} {cs : List Char}, cs.length ≤ n →
    (⟨.outside, d⟩ : Cursor).fault? cs = none → Closes d cs := by
  induction n with
  | zero =>
    intro d cs hn h
    rw [List.length_eq_zero_iff.1 (Nat.le_zero.1 hn)] at h ⊢
    cases d with
    | zero => exact .nil
    | succ d => simp [fault?] at h; omega
  | succ n ih =>
    intro d cs hn h
    have hd : 0 ≤ (d : Int) := by omega
    cases cs with
    | nil => exact ih (Nat.zero_le n) h
    | cons c cs =>
      have hlen : cs.length ≤ n := by simpa using hn
      by_cases hq : c = '"'
      · subst hq
        rw [fault?_step (step_quote _) hd] at h
        obtain ⟨b, rest, hb, rfl, hr⟩ := exists_content_of_fault? h
        have hl : rest.length ≤ n := by simp at hlen; omega
        simpa [Literal.enclosed] using (ih hl hr).append (Balanced.literal hb .nil)
      by_cases ho : c = '('
      · subst ho
        rw [fault?_step (step_open _) (show 0 ≤ (d : Int) + 1 by omega)] at h
        obtain ⟨b, rest, hb, rfl, hr⟩ := ih (d := d + 1) hlen h
        simpa using hr.append (Balanced.group hb .nil)
      by_cases hs : c = ')'
      · subst hs
        rw [fault?_cons, step_close] at h
        cases d with
        | zero => simp at h
        | succ d =>
          have he : ((d + 1 : Nat) : Int) - 1 = d := by omega
          rw [he, if_neg (show ¬ (d : Int) < 0 by omega)] at h
          exact ⟨[], cs, .nil, rfl, ih hlen h⟩
      rw [fault?_step (step_plain hq ho hs _) hd] at h
      exact (ih hlen h).append (Balanced.plain hq ho hs .nil)

end Cursor

/-- The check passes exactly the balanced texts. -/
theorem balanceFault?_eq_none_iff {cs : List Char} : balanceFault? cs = none ↔ Balanced cs := by
  constructor
  · intro h
    exact Cursor.closes_of_fault? cs.length (Nat.le_refl _) h
  · intro h
    have := Cursor.fault?_balanced (Int.le_refl 0) h []
    rw [List.append_nil] at this
    rw [balanceFault?, Cursor.start, this]
    rfl

end ScimBridge
