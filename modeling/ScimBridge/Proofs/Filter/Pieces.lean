import ScimBridge.Proofs.Filter.Longer

/-!
# Pieces of balanced texts

What the reader cuts out of a balanced text is balanced, if the text is free of dotted capitals: the
text without the blanks around it, both sides of its first connective, what a `not` stands in front
of, and the inside of a group (`Balanced.trim` and its neighbours).

1. `Balanced.split`: where the cursor comes back to the start, both sides are balanced.
2. `closingIndex?_eq_some_iff`: behind an opening parenthesis, the parenthesis that closes it stands
   where the number of open parentheses is first zero again.
-/

namespace ScimBridge

open Cursor

/-! ## Where the cursor comes back to the start -/

namespace Cursor

theorem fault?_of_append {cur : Cursor} {cs ds : List Char} (h : cur.fault? (cs ++ ds) = none) :
    (cur.behind cs).fault? ds = none := by
  induction cs generalizing cur with
  | nil => exact h
  | cons c cs ih =>
    rw [List.cons_append, fault?_cons] at h
    split at h
    · cases h
    · exact ih h

/-- A blank changes nothing outside literals, and it closes none. -/
theorem step_blank {cur : Cursor} {c : Char} (hc : isBlank c = true) :
    cur.step c = cur ∨ (cur.step c).place = .inside := by
  have hq : c ≠ '"' := isBlank_ne hc (by decide)
  have hs : c ≠ '\\' := isBlank_ne hc (by decide)
  obtain ⟨place, depth⟩ := cur
  cases place with
  | outside => exact .inl (step_plain hq (isBlank_ne hc (by decide)) (isBlank_ne hc (by decide)) _)
  | inside => exact .inl (step_content hq hs _)
  | escaped => exact .inr rfl

theorem eq_of_behind_blanks {cur : Cursor} {v : List Char} (hv : allBlank v = true)
    (h : cur.behind v = start) : cur = start := by
  induction v generalizing cur with
  | nil => exact h
  | cons c v ih =>
    rw [allBlank_iff, List.forall_mem_cons] at hv
    have hstep := ih (allBlank_iff.2 hv.2) h
    rcases step_blank hv.1 with he | hp
    · rwa [he] at hstep
    · rw [hstep] at hp
      cases hp

end Cursor

theorem Balanced.behind {cs : List Char} (h : Balanced cs) : start.behind cs = start :=
  behind_balanced h 0

/-- Where the cursor comes back to the start, a balanced text is cut into balanced texts. -/
theorem Balanced.split {cs ds : List Char} (h : Balanced (cs ++ ds))
    (hcs : start.behind cs = start) : Balanced cs ∧ Balanced ds := by
  rw [← balanceFault?_eq_none_iff] at h
  have hds : start.fault? ds = none := by
    rw [← hcs]
    exact fault?_of_append h
  refine ⟨balanceFault?_eq_none_iff.1 ?_, balanceFault?_eq_none_iff.1 hds⟩
  have hends : (start.behind cs).fault? ds = (start.behind cs).fault? [] := by
    rw [hcs, hds]
    rfl
  have := fault?_append_congr hends
  rw [List.append_nil] at this
  exact this.symm.trans h

theorem Balanced.of_append {cs ds : List Char} (hcs : Balanced cs) (h : Balanced (cs ++ ds)) :
    Balanced ds :=
  (h.split hcs.behind).2

/-! ## What the reader cuts out -/

section Pieces

variable {cs : List Char} (h : Balanced cs)

include h

theorem Balanced.trim : Balanced (trim cs) := by
  obtain ⟨u, v, hu, hv, he⟩ := exists_blanks_trim cs
  rw [he, List.append_assoc] at h
  have hrest := (balanced_of_allBlank hu).of_append h
  have hbehind := hrest.behind
  rw [behind_append] at hbehind
  exact (hrest.split (eq_of_behind_blanks hv hbehind)).1

/-- What stands in front of the first connective is balanced. -/
theorem Balanced.take_first? {i : Nat} {w : Connective} (hc : Connective.first? cs = some (i, w)) :
    Balanced (cs.take i) := by
  rw [← List.take_append_drop i cs] at h
  exact (h.split (Connective.search?_eq_some hc).1).1

/-- What stands behind the first connective is balanced, if the connective is spelled there. -/
theorem Balanced.drop_first? (hI : 'İ' ∉ cs) {i : Nat} {w : Connective}
    (hc : Connective.first? cs = some (i, w)) : Balanced (cs.drop (i + w.word.length)) := by
  obtain ⟨front, kw, c, rest, rfl, rfl, hkw, hfront, -⟩ := Connective.exists_spelled_of_first? hI hc
  have hletters := Connective.letters_of_word hkw
  rw [← hkw, length_lowerText hletters.1, ← List.length_append, ← List.append_assoc,
    List.drop_left]
  exact (balanced_of_letters hletters.2).of_append (h.split hfront).2

/-- What a `not` stands in front of is balanced. -/
theorem Balanced.negated {rest : List Char} (hn : Filter.negated? cs = some rest) :
    Balanced rest := by
  obtain ⟨kw, gap, rfl, hkw, hgap, -⟩ := Filter.negated?_eq_some_iff.1 hn
  have hkw' := balanced_of_letters (Filter.letters_of_not hkw).2
  exact (balanced_of_allBlank hgap).of_append (hkw'.of_append h)

/-- What a balanced text opens with, it closes. -/
theorem Balanced.exists_group {rest : List Char} (he : cs = '(' :: rest) :
    ∃ inner tail, Balanced inner ∧ rest = inner ++ ')' :: tail := by
  cases h with
  | nil => cases he
  | plain _ ho => exact absurd (List.cons.inj he).1 ho
  | literal => cases (List.cons.inj he).1
  | @group inner tail hi _ => exact ⟨inner, tail, hi, (List.cons.inj he).2.symm⟩

theorem Balanced.interior {inner : List Char} (hg : groupInterior? cs = some inner) :
    Balanced inner := by
  obtain ⟨rfl, hc⟩ := groupInterior?_eq_some_iff.1 hg
  obtain ⟨inner', tail, hi, he⟩ := h.exists_group List.cons_append
  have hc' : closingIndex? start ('(' :: inner' ++ [')'] ++ tail) = some (inner'.length + 1) := by
    rw [closingIndex?_append, closingIndex?_group hi]
    rfl
  have hsame : '(' :: inner ++ [')'] = '(' :: inner' ++ [')'] ++ tail := by
    simp [he]
  rw [hsame, hc'] at hc
  have hlength : inner'.length = inner.length := by
    have := Option.some.inj hc
    omega
  obtain ⟨rfl, -⟩ := List.append_inj he hlength.symm
  exact hi

end Pieces

/-! ## The closing parenthesis -/

/-- The open parentheses are first all closed behind the character at an index. -/
structure FirstClosed (cur : Cursor) (cs : List Char) (i : Nat) : Prop where
  lt : i < cs.length
  closed : (cur.behind (cs.take (i + 1))).depth = 0
  opened : ∀ j, 0 < j → j ≤ i → 0 < (cur.behind (cs.take j)).depth

theorem FirstClosed.unique {cur : Cursor} {cs : List Char} {i j : Nat} (hi : FirstClosed cur cs i)
    (hj : FirstClosed cur cs j) : i = j := by
  rcases Nat.lt_trichotomy i j with h | h | h
  · exact absurd hi.closed (Int.ne_of_gt (hj.opened (i + 1) (Nat.succ_pos i) h))
  · exact h
  · exact absurd hj.closed (Int.ne_of_gt (hi.opened (j + 1) (Nat.succ_pos j) h))

/-- One more character in front: it must leave some parenthesis open. -/
theorem firstClosed_cons_iff {cur : Cursor} {c : Char} {cs : List Char} {i : Nat}
    (h : 0 < (cur.step c).depth) :
    FirstClosed cur (c :: cs) (i + 1) ↔ FirstClosed (cur.step c) cs i := by
  constructor
  · intro hi
    refine ⟨Nat.lt_of_succ_lt_succ hi.lt, hi.closed, fun j hj hle => ?_⟩
    exact hi.opened (j + 1) (Nat.succ_pos j) (Nat.succ_le_succ hle)
  · intro hi
    refine ⟨Nat.succ_lt_succ hi.lt, hi.closed, fun j hj hle => ?_⟩
    obtain ⟨j, rfl⟩ := Nat.exists_eq_succ_of_ne_zero (Nat.ne_of_gt hj)
    cases j with
    | zero => exact h
    | succ j => exact hi.opened (j + 1) (Nat.succ_pos j) (Nat.le_of_succ_le_succ hle)

/-- Only a parenthesis outside literals closes the last one that is open. -/
theorem step_depth {cur : Cursor} (hcur : 0 < cur.depth) (c : Char) :
    0 < (cur.step c).depth ∨ (cur.place = .outside ∧ c = ')' ∧ cur.depth = 1) := by
  unfold Cursor.step
  dsimp only
  split_ifs with hp ho hs
  · exact .inl (by omega)
  · by_cases h1 : cur.depth = 1
    · exact .inr ⟨hp, hs, h1⟩
    · exact .inl (by omega)
  · exact .inl hcur
  · exact .inl hcur

/-- With parentheses open, the scan stops where they are first all closed. -/
theorem closingIndex?_iff_firstClosed {cur : Cursor} {cs : List Char} {i : Nat}
    (hcur : 0 < cur.depth) : closingIndex? cur cs = some i ↔ FirstClosed cur cs i := by
  induction cs generalizing cur i with
  | nil =>
    constructor
    · intro h
      cases h
    · exact fun h => absurd h.lt (Nat.not_lt_zero i)
  | cons c cs ih =>
    rw [closingIndex?_cons]
    by_cases hclose : cur.place = .outside ∧ c = ')' ∧ cur.depth = 1
    · obtain ⟨hp, rfl, h1⟩ := hclose
      have hfirst : FirstClosed cur (')' :: cs) 0 := by
        refine ⟨Nat.succ_pos _, ?_, fun j hj hle => absurd hj (Nat.not_lt.2 hle)⟩
        show (cur.step ')').depth = 0
        simp [Cursor.step, hp, h1]
      rw [if_pos ⟨hp, rfl, h1⟩, Option.some.injEq]
      exact ⟨fun h => h ▸ hfirst, hfirst.unique⟩
    · have hstep := (step_depth hcur c).resolve_right hclose
      rw [if_neg hclose, Option.map_eq_some_iff]
      cases i with
      | zero =>
        constructor
        · rintro ⟨j, -, hj⟩
          cases hj
        · exact fun h => absurd h.closed (Int.ne_of_gt hstep)
      | succ i =>
        rw [firstClosed_cons_iff hstep, ← ih hstep]
        simp

/-- The scan of a text that begins with a parenthesis stops where that one is closed. -/
theorem closingIndex?_eq_some_iff {rest : List Char} {i : Nat} :
    closingIndex? start ('(' :: rest) = some i ↔ FirstClosed start ('(' :: rest) i := by
  rw [closingIndex?_cons, if_neg (by simp), Option.map_eq_some_iff]
  cases i with
  | zero =>
    constructor
    · rintro ⟨j, -, hj⟩
      cases hj
    · exact fun h => absurd h.closed (Int.ne_of_gt (show 0 < (start.step '(').depth by decide))
  | succ i =>
    rw [firstClosed_cons_iff (by decide), ← closingIndex?_iff_firstClosed (by decide)]
    simp

/-- In a balanced text the parenthesis at the head is closed at one place. -/
theorem Balanced.exists_closingIndex? {cs rest : List Char} (h : Balanced cs)
    (he : cs = '(' :: rest) :
    ∃ i, closingIndex? start cs = some i ∧ ∀ j, FirstClosed start cs j ↔ j = i := by
  obtain ⟨inner, tail, hi, rfl⟩ := h.exists_group he
  subst he
  have hc : closingIndex? start ('(' :: (inner ++ ')' :: tail)) = some (inner.length + 1) := by
    have := closingIndex?_append start ('(' :: inner ++ [')']) tail
    rw [closingIndex?_group hi] at this
    simpa using this
  have hfirst := closingIndex?_eq_some_iff.1 hc
  exact ⟨_, hc, fun j => ⟨fun hj => hj.unique hfirst, fun hj => hj ▸ hfirst⟩⟩

end ScimBridge
