import Mathlib.Data.List.DropRight
import Mathlib.Data.List.TakeWhile
import ScimBridge.Text.Blank

/-!
# Trimmed texts

A run of characters of one class is cut off where the class ends (`dropWhile_run`), in one way only
(`run_append_cancel`).

Every text is its trimmed form between blanks, and a text without blanks at its ends between blanks
is trimmed back to itself (`trim_eq_of_trimmed`), so readers that trim do not see the blanks around
what they read (`trim_pad`).
-/

namespace ScimBridge

/-! ## Cutting off a run of characters -/

section Runs

variable {p : Char → Bool} {run rest : List Char} (hrun : ∀ c ∈ run, p c = true)
  (hrest : ∀ c, rest.head? = some c → p c = false)

include hrun hrest

theorem takeWhile_run : (run ++ rest).takeWhile p = run := by
  rw [List.takeWhile_append_of_pos hrun]
  cases rest with
  | nil => simp
  | cons c rest => simp [hrest c rfl]

theorem dropWhile_run : (run ++ rest).dropWhile p = rest := by
  rw [List.dropWhile_append_of_pos hrun]
  cases rest with
  | nil => rfl
  | cons c rest => simp [hrest c rfl]

/-- A text is cut behind a run in one way only. -/
theorem run_append_cancel {run' rest' : List Char} (hrun' : ∀ c ∈ run', p c = true)
    (hrest' : ∀ c, rest'.head? = some c → p c = false) (h : run ++ rest = run' ++ rest') :
    run = run' ∧ rest = rest' := by
  have hr : run = run' := by
    rw [← takeWhile_run hrun hrest, h, takeWhile_run hrun' hrest']
  subst hr
  exact ⟨rfl, List.append_cancel_left h⟩

end Runs

/-- The first character that is left is none of those that are dropped. -/
theorem head?_dropWhile {p : Char → Bool} {cs : List Char} {c : Char}
    (h : (cs.dropWhile p).head? = some c) : p c = false := by
  have := List.head?_dropWhile_not p cs
  rw [h] at this
  simpa using this

/-! ## Trimming -/

/-- Neither the first nor the last character is blank. -/
def Trimmed (cs : List Char) : Prop :=
  (∀ c, cs.head? = some c → isBlank c = false) ∧ ∀ c, cs.getLast? = some c → isBlank c = false

theorem allBlank_iff {cs : List Char} : allBlank cs = true ↔ ∀ c ∈ cs, isBlank c = true :=
  List.all_eq_true

theorem allBlank_append {cs ds : List Char} :
    allBlank (cs ++ ds) = true ↔ allBlank cs = true ∧ allBlank ds = true := by
  unfold allBlank
  rw [List.all_append, Bool.and_eq_true]

theorem trimStart_blanks_append {u : List Char} (hu : allBlank u = true) (cs : List Char) :
    trimStart (u ++ cs) = trimStart cs :=
  List.dropWhile_append_of_pos (allBlank_iff.1 hu)

theorem trimEnd_append_blanks {v : List Char} (hv : allBlank v = true) (cs : List Char) :
    trimEnd (cs ++ v) = trimEnd cs := by
  unfold trimEnd
  rw [List.reverse_append, List.dropWhile_append_of_pos]
  intro c hc
  exact allBlank_iff.1 hv c (List.mem_reverse.1 hc)

/-- Behind what is trimmed in front, a text that begins with no blank stays as it is. -/
theorem trimStart_append {m : List Char} (hm : ∀ c, m.head? = some c → isBlank c = false)
    (hne : m ≠ []) (p : List Char) : trimStart (p ++ m) = trimStart p ++ m := by
  obtain ⟨c, m, rfl⟩ := List.exists_cons_of_ne_nil hne
  unfold trimStart
  rw [List.dropWhile_append, List.dropWhile_cons, hm c rfl, if_neg Bool.false_ne_true]
  split
  · rename_i h
    rw [List.isEmpty_iff.1 h, List.nil_append]
  · rfl

theorem trimEnd_append {m : List Char} (hm : ∀ c, m.getLast? = some c → isBlank c = false)
    (hne : m ≠ []) (q : List Char) : trimEnd (m ++ q) = m ++ trimEnd q := by
  have h := trimStart_append (m := m.reverse) (by simpa using hm) (by simpa using hne) q.reverse
  show (trimStart (m ++ q).reverse).reverse = _
  rw [List.reverse_append, h, List.reverse_append, List.reverse_reverse]
  rfl

/-- Around a piece without blanks at its ends, what stands before it is trimmed in front and what
stands behind it at the end. -/
theorem trim_around {m : List Char} (hm : Trimmed m) (hne : m ≠ []) (p q : List Char) :
    trim (p ++ m ++ q) = trimStart p ++ m ++ trimEnd q := by
  have hlast : ∀ c, (trimStart p ++ m).getLast? = some c → isBlank c = false := by
    intro c hc
    rw [List.getLast?_append_of_ne_nil _ hne] at hc
    exact hm.2 c hc
  unfold trim
  rw [List.append_assoc, trimStart_append (m := m ++ q), ← List.append_assoc,
    trimEnd_append hlast (by simp [hne])]
  · intro c hc
    rw [List.head?_append_of_ne_nil _ hne] at hc
    exact hm.1 c hc
  · simp [hne]

/-- A text without blanks at its ends is what is left of it between blanks. -/
theorem trim_eq_of_trimmed {u m v : List Char} (hu : allBlank u = true) (hm : Trimmed m)
    (hv : allBlank v = true) : trim (u ++ m ++ v) = m := by
  have hus : trimStart u = [] := List.dropWhile_eq_nil_iff.2 (allBlank_iff.1 hu)
  by_cases hne : m = []
  · unfold trim
    rw [hne, List.append_nil, trimStart_blanks_append hu]
    rw [show trimStart v = [] from List.dropWhile_eq_nil_iff.2 (allBlank_iff.1 hv)]
    rfl
  · rw [trim_around hm hne, hus, ← List.append_nil (trimEnd v), ← List.nil_append v,
      trimEnd_append_blanks hv]
    simp [trimEnd]

theorem trimmed_trim (cs : List Char) : Trimmed (trim cs) := by
  have hpre : trim cs <+: trimStart cs := List.rdropWhile_prefix isBlank (trimStart cs)
  constructor
  · intro c hc
    obtain ⟨t, ht⟩ := hpre
    have hhead : (trimStart cs).head? = some c := by
      rw [← ht, List.head?_append, hc]
      rfl
    exact head?_dropWhile hhead
  · intro c hc
    have hhead : (trimStart (trimStart cs).reverse).head? = some c := by
      rw [← hc]
      exact List.getLast?_reverse.symm
    exact head?_dropWhile hhead

/-- A text is its trimmed form between blanks. -/
theorem exists_blanks_trim (cs : List Char) :
    ∃ u v, allBlank u = true ∧ allBlank v = true ∧ cs = u ++ trim cs ++ v := by
  refine ⟨cs.takeWhile isBlank, (trimStart cs).rtakeWhile isBlank, ?_, ?_, ?_⟩
  · exact allBlank_iff.2 fun c hc => List.mem_takeWhile_imp hc
  · exact allBlank_iff.2 fun c hc => List.mem_rtakeWhile_imp hc
  · have h : trim cs ++ (trimStart cs).rtakeWhile isBlank = trimStart cs :=
      List.rdropWhile_append_rtakeWhile
    rw [List.append_assoc, h]
    exact List.takeWhile_append_dropWhile.symm

theorem mem_of_mem_trim {c : Char} {cs : List Char} (h : c ∈ trim cs) : c ∈ cs := by
  obtain ⟨u, v, -, -, he⟩ := exists_blanks_trim cs
  rw [he]
  exact List.mem_append_left v (List.mem_append_right u h)

/-- The beginning of a trimmed text is trimmed at its end alone. -/
theorem trim_take_isPrefix {cs : List Char} (h : Trimmed cs) (i : Nat) :
    trim (cs.take i) <+: cs.take i := by
  have hs : trimStart (cs.take i) = cs.take i := by
    cases cs with
    | nil => rw [List.take_nil]; rfl
    | cons c cs =>
      cases i with
      | zero => rfl
      | succ i =>
        unfold trimStart
        rw [List.take_succ_cons, List.dropWhile_cons, h.1 c rfl, if_neg Bool.false_ne_true]
  unfold trim
  rw [hs]
  exact List.rdropWhile_prefix isBlank _

/-- Blanks around a text do not matter to its trimmed form. -/
theorem trim_pad {u v : List Char} (hu : allBlank u = true) (hv : allBlank v = true)
    (cs : List Char) : trim (u ++ cs ++ v) = trim cs := by
  obtain ⟨u', v', hu', hv', h⟩ := exists_blanks_trim cs
  calc trim (u ++ cs ++ v) = trim ((u ++ u') ++ trim cs ++ (v' ++ v)) := by
        conv_lhs => rw [h]
        simp only [List.append_assoc]
    _ = trim cs := trim_eq_of_trimmed (allBlank_append.2 ⟨hu, hu'⟩) (trimmed_trim cs)
        (allBlank_append.2 ⟨hv', hv⟩)

theorem trim_of_trimmed {cs : List Char} (h : Trimmed cs) : trim cs = cs := by
  simpa using trim_eq_of_trimmed (u := []) (v := []) rfl h rfl

theorem trimmed_of_trim_eq {cs : List Char} (h : trim cs = cs) : Trimmed cs := h ▸ trimmed_trim cs

theorem trim_trim (cs : List Char) : trim (trim cs) = trim cs := trim_of_trimmed (trimmed_trim cs)

theorem trim_eq_nil_iff {cs : List Char} : trim cs = [] ↔ allBlank cs = true := by
  constructor
  · intro h
    obtain ⟨u, v, hu, hv, he⟩ := exists_blanks_trim cs
    rw [he, h, List.append_nil]
    exact allBlank_append.2 ⟨hu, hv⟩
  · intro h
    simpa using trim_eq_of_trimmed (m := []) (v := []) h ⟨by simp, by simp⟩ rfl

end ScimBridge
