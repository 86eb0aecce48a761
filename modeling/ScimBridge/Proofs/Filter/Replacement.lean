import ScimBridge.Proofs.Filter.Grammar
import ScimBridge.Proofs.Filter.Literal

/-!
# Literals in a text

What the scans and the readers of one step find in a text around a literal does not depend on the
content of the literal.

1. `Outside`: whether a literal can begin behind a text.
2. `balanced_around`, `groupInterior?_around`, `first?_around`: the scans. The search for
   connectives looks a few characters ahead, but never past a quote (`search?_quote`).
3. `negated?_around`, `read_around`: what stands in front of the literal and what is read.
-/

namespace ScimBridge

/-- A text with a literal in it. -/
def around (pre b post : List Char) : List Char := pre ++ (Literal.enclosed b ++ post)

theorem around_append (x pre b post : List Char) :
    around (x ++ pre) b post = x ++ around pre b post :=
  List.append_assoc _ _ _

theorem around_eq (pre b post : List Char) :
    around pre b post = pre ++ '"' :: (b ++ '"' :: post) := by
  simp [around, Literal.enclosed]

theorem length_around (pre b post : List Char) :
    (around pre b post).length = pre.length + (b.length + 2 + post.length) := by
  rw [around, List.length_append, List.length_append, Literal.length_enclosed]

theorem take_around {pre : List Char} {i : Nat} (hi : i ≤ pre.length) (b post : List Char) :
    (around pre b post).take i = pre.take i :=
  List.take_append_of_le_length hi

theorem drop_around {pre : List Char} {i : Nat} (hi : i ≤ pre.length) (b post : List Char) :
    (around pre b post).drop i = around (pre.drop i) b post :=
  List.drop_append_of_le_length hi

theorem take_around_behind (pre b post : List Char) (j : Nat) :
    (around pre b post).take (j + (b.length + 2 + pre.length)) = around pre b (post.take j) := by
  have hlen : j + (b.length + 2 + pre.length) = (pre ++ Literal.enclosed b).length + j := by
    rw [List.length_append, Literal.length_enclosed]
    omega
  rw [around, ← List.append_assoc, hlen, List.take_length_add_append, List.append_assoc]
  rfl

theorem drop_around_behind (pre b post : List Char) (j : Nat) :
    (around pre b post).drop (j + (b.length + 2 + pre.length)) = post.drop j := by
  have hlen : j + (b.length + 2 + pre.length) = (pre ++ Literal.enclosed b).length + j := by
    rw [List.length_append, Literal.length_enclosed]
    omega
  rw [around, ← List.append_assoc, hlen, List.drop_length_add_append]

theorem trimmed_enclosed (b : List Char) : Trimmed (Literal.enclosed b) := by
  constructor
  · intro c hc
    cases hc
    decide
  · intro c hc
    rw [Literal.getLast?_enclosed] at hc
    cases hc
    decide

/-- A text without quotes in front of a text around a literal ends in front of the literal. -/
theorem exists_split_of_plain {x rest pre b post : List Char} (hx : '"' ∉ x)
    (h : around pre b post = x ++ rest) : ∃ pre', pre = x ++ pre' ∧ rest = around pre' b post := by
  rw [around_eq] at h
  rcases List.append_eq_append_iff.1 h with ⟨c, rfl, hc⟩ | ⟨pre', rfl, hrest⟩
  · cases c with
    | nil =>
      refine ⟨[], by simp, ?_⟩
      rw [around_eq]
      exact hc.symm
    | cons d c =>
      cases (List.cons.inj hc).1
      exact absurd (by simp) hx
  · exact ⟨pre', rfl, by rw [hrest, around_eq]⟩

/-! ## Where a literal can begin -/

/-- The text ends outside literals. -/
def Outside (cs : List Char) : Prop := (Cursor.start.behind cs).place = .outside

theorem place_behind (cur : Cursor) (cs : List Char) :
    (cur.behind cs).place = cs.foldl Place.next cur.place := by
  induction cs generalizing cur with
  | nil => rfl
  | cons c cs ih => exact ih (cur.step c)

theorem outside_append_iff {x cs : List Char} (hx : Outside x) :
    Outside (x ++ cs) ↔ Outside cs := by
  unfold Outside at hx ⊢
  rw [Cursor.behind_append, place_behind (Cursor.start.behind x), hx, place_behind Cursor.start]
  rfl

theorem outside_of_plain {x : List Char} (hx : '"' ∉ x) : Outside x := by
  unfold Outside
  rw [place_behind]
  induction x with
  | nil => rfl
  | cons c x ih =>
    rw [List.mem_cons, not_or] at hx
    have hc : Place.next .outside c = .outside := if_neg (Ne.symm hx.1)
    rw [List.foldl_cons]
    exact (congrArg (fun p => x.foldl Place.next p) hc).trans (ih hx.2)

theorem behind_of_outside {cs : List Char} (h : Outside cs) :
    Cursor.start.behind cs = ⟨.outside, (Cursor.start.behind cs).depth⟩ := by
  rw [← h]

theorem outside_trimStart {cs : List Char} (h : Outside cs) : Outside (trimStart cs) := by
  have hblanks : allBlank (cs.takeWhile isBlank) = true :=
    allBlank_iff.2 fun c hc => List.mem_takeWhile_imp hc
  have he : cs.takeWhile isBlank ++ trimStart cs = cs := List.takeWhile_append_dropWhile
  rw [← he] at h
  exact (outside_append_iff (outside_of_plain (not_mem_of_allBlank (by decide) hblanks))).1 h

/-- A literal that is open closes before a text ends outside literals. -/
theorem exists_content_of_outside {cs : List Char}
    (h : cs.foldl Place.next .inside = .outside) :
    ∃ b rest, Literal.Content b ∧ cs = b ++ '"' :: rest := by
  induction cs using Literal.afterString?.induct with
  | case1 => cases h
  | case2 rest => exact ⟨[], rest, .nil, rfl⟩
  | case3 c tail ih =>
    obtain ⟨b, rest, hb, rfl⟩ := ih h
    exact ⟨'\\' :: c :: b, rest, .escaped hb, rfl⟩
  | case4 => cases h
  | case5 c tail hq hs he ih =>
    have hc : c ≠ '\\' := by
      rintro rfl
      cases tail with
      | nil => exact he rfl rfl
      | cons e tail => exact hs e tail rfl rfl
    have hnext : Place.next .inside c = .inside := by
      simp [Place.next, hc, show c ≠ '"' from hq]
    rw [List.foldl_cons, hnext] at h
    obtain ⟨b, rest, hb, rfl⟩ := ih h
    exact ⟨c :: b, rest, .plain hq hc hb, rfl⟩

/-! ## The scans -/

section Scans

variable {pre b b' post : List Char} (ho : Outside pre) (hb : Literal.Content b)
  (hb' : Literal.Content b')

theorem trim_around_literal (pre b post : List Char) :
    trim (around pre b post) = around (trimStart pre) b (trimEnd post) := by
  have h := trim_around (trimmed_enclosed b) (List.cons_ne_nil _ _) pre post
  simpa only [around, List.append_assoc] using h

include ho hb hb'

/-- The content of a literal does not matter to the check of parentheses and literals. -/
theorem fault?_around :
    Cursor.start.fault? (around pre b post) = Cursor.start.fault? (around pre b' post) := by
  refine Cursor.fault?_append_congr ?_
  rw [behind_of_outside ho]
  generalize (Cursor.start.behind pre).depth = d
  by_cases hd : 0 ≤ d
  · rw [Cursor.fault?_enclosed hd hb, Cursor.fault?_enclosed hd hb']
  · have hfault (c : List Char) :
        (⟨.outside, d⟩ : Cursor).fault? ('"' :: c) = some .unbalancedParentheses :=
      if_pos (Int.not_le.1 hd)
    exact (hfault _).trans (hfault _).symm

theorem balanced_around (h : Balanced (around pre b post)) : Balanced (around pre b' post) := by
  rw [← balanceFault?_eq_none_iff] at h ⊢
  exact (fault?_around ho hb hb').symm.trans h

end Scans

theorem closingIndex?_around {pre b : List Char} (ho : Outside pre) (hb : Literal.Content b)
    (post : List Char) :
    closingIndex? Cursor.start (around pre b post) =
      (closingIndex? Cursor.start pre).or
        ((closingIndex? (Cursor.start.behind pre) post).map (· + (b.length + 2 + pre.length))) := by
  rw [around, closingIndex?_append, closingIndex?_append, behind_of_outside ho,
    closingIndex?_enclosed hb, Cursor.behind_enclosed hb, Literal.length_enclosed, Option.none_or,
    Option.map_map]
  congr 2
  funext i
  exact Nat.add_assoc i _ _

/-- What ends in a parenthesis has it behind the literal. -/
theorem exists_post_of_concat {pre b post inner : List Char}
    (h : inner ++ [')'] = around pre b post) :
    ∃ post', post = post' ++ [')'] ∧ inner = around pre b post' := by
  rcases List.eq_nil_or_concat post with rfl | ⟨post', d, rfl⟩
  · have hlast := congrArg List.getLast? h
    rw [around, List.append_nil, Literal.enclosed, ← List.append_assoc, List.getLast?_concat,
      List.getLast?_concat] at hlast
    cases hlast
  · rw [List.concat_eq_append] at h ⊢
    have he : inner ++ [')'] = around pre b post' ++ [d] := by
      rw [h]
      simp only [around, List.append_assoc]
    obtain ⟨rfl, hd⟩ := List.append_inj' he rfl
    cases hd
    exact ⟨post', rfl, rfl⟩

/-- A group around a literal is a group whatever the literal holds. -/
theorem groupInterior?_around {pre b post inner : List Char} (ho : Outside pre)
    (hb : Literal.Content b) (h : groupInterior? (around pre b post) = some inner) :
    ∃ pre' post', pre = '(' :: pre' ∧ inner = around pre' b post' ∧
      ∀ b', Literal.Content b' →
        groupInterior? (around pre b' post) = some (around pre' b' post') := by
  obtain ⟨he, hc⟩ := groupInterior?_eq_some_iff.1 h
  obtain ⟨pre', rfl, hrest⟩ := exists_split_of_plain (x := ['(']) (by decide) he
  obtain ⟨post', rfl, rfl⟩ := exists_post_of_concat hrest
  rw [List.cons_append, List.nil_append] at ho hc ⊢
  rw [closingIndex?_around ho hb, length_around] at hc
  -- the parenthesis that closes the group stands behind the literal
  have hpre : closingIndex? Cursor.start ('(' :: pre') = none := by
    refine Option.eq_none_iff_forall_ne_some.2 fun i hi => ?_
    have hlt := closingIndex?_lt hi
    rw [hi] at hc
    have := Option.some.inj hc
    simp only [List.length_cons] at hlt
    omega
  rw [hpre, Option.none_or] at hc
  obtain ⟨j, hj, hlen⟩ := Option.map_eq_some_iff.1 hc
  have hj' : j = post'.length := by
    simp only [List.length_cons] at hlen
    omega
  refine ⟨pre', post', rfl, rfl, fun b' hb' => groupInterior?_eq_some_iff.2 ⟨?_, ?_⟩⟩
  · simp [around]
  · rw [closingIndex?_around ho hb', hpre, hj, hj', Option.none_or, length_around]
    simp only [Option.map_some, List.length_cons]
    congr 1
    omega

/-! ## The search for connectives -/

/-- A word without quotes stands in front of a quote or not at all. -/
theorem isPrefix_append_quote_iff {word cs : List Char} (hw : '"' ∉ word) (rest : List Char) :
    word <+: cs ++ '"' :: rest ↔ word <+: cs := by
  constructor
  · rintro ⟨t, h⟩
    rcases List.append_eq_append_iff.1 h with ⟨c, rfl, -⟩ | ⟨c, rfl, hc⟩
    · exact List.prefix_append word c
    · cases c with
      | nil => simp
      | cons d c =>
        cases (List.cons.inj hc).1
        exact absurd (by simp) hw
  · intro h
    exact h.trans (List.prefix_append cs _)

namespace Connective

theorem quote_not_mem_word (w : Connective) : '"' ∉ w.word := by cases w <;> decide

/-- Whether a word stands at the head of a text is settled in front of the first quote. -/
theorem standsAt_quote (w : Connective) {cs lower : List Char} (hlen : lower.length = cs.length)
    (t lt : List Char) :
    w.standsAt (cs ++ '"' :: t) (lower ++ '"' :: lt) =
      w.standsAt (cs ++ ['"']) (lower ++ ['"']) := by
  have hw := quote_not_mem_word w
  rw [Bool.eq_iff_iff, standsAt_iff, standsAt_iff, isPrefix_append_quote_iff hw,
    isPrefix_append_quote_iff hw]
  refine and_congr_right fun hpre => ?_
  have hle : w.word.length ≤ cs.length := hlen ▸ hpre.length_le
  rcases Nat.lt_or_eq_of_le hle with hlt | heq
  · rw [List.getElem?_append_left hlt, List.getElem?_append_left hlt]
  · rw [heq, List.getElem?_append_right (Nat.le_refl _), List.getElem?_append_right (Nat.le_refl _),
      Nat.sub_self]
    rfl

theorem here?_quote {before : Option Char} {cur : Cursor} {c : Char} {cs lower : List Char}
    (hlen : lower.length = (c :: cs).length) (t lt : List Char) :
    here? before cur c (cs ++ '"' :: t) (lower ++ '"' :: lt) =
      here? before cur c (cs ++ ['"']) (lower ++ ['"']) := by
  have hat : at? (c :: (cs ++ '"' :: t)) (lower ++ '"' :: lt) =
      at? (c :: (cs ++ ['"'])) (lower ++ ['"']) := by
    unfold at?
    congr 1
    funext w
    exact standsAt_quote w hlen t lt
  unfold here?
  rw [hat]

/-- What the search finds in front of a quote does not depend on what stands behind the quote. -/
theorem search?_quote {before : Option Char} {cur : Cursor} {cs lower : List Char}
    (hlen : lower.length = cs.length) (t lt : List Char) :
    search? before cur (cs ++ '"' :: t) (lower ++ '"' :: lt) =
      (search? before cur (cs ++ ['"']) (lower ++ ['"'])).or
        ((search? (cs.getLast?.or before) (cur.behind cs) ('"' :: t) ('"' :: lt)).map
          (shift cs.length)) := by
  induction cs generalizing before cur lower with
  | nil =>
    cases List.length_eq_zero_iff.1 hlen
    -- no connective stands at the quote itself
    have hhere : here? before cur '"' [] ['"'] = none := if_neg fun h => h.2.2.1 rfl
    have hnone : search? before cur ['"'] ['"'] = none := by
      rw [search?_cons_of_none hhere]
      rfl
    show _ = (search? before cur ['"'] ['"']).or _
    rw [hnone, Option.none_or]
    exact Option.map_id'.symm
  | cons c cs ih =>
    obtain ⟨l, lower, rfl⟩ := List.exists_cons_of_length_eq_add_one hlen
    have hlen' : lower.length = cs.length := Nat.succ.inj hlen
    have hhere := @here?_quote before cur c cs (l :: lower) hlen t lt
    simp only [List.cons_append] at hhere ⊢
    cases hh : here? before cur c (cs ++ ['"']) (l :: (lower ++ ['"'])) with
    | some w =>
      rw [hh] at hhere
      rw [search?_cons_of_some hhere, search?_cons_of_some hh]
      rfl
    | none =>
      rw [hh] at hhere
      rw [search?_cons_of_none hhere, search?_cons_of_none hh, List.tail_cons, List.tail_cons,
        ih hlen', Option.map_or, map_shift_map_shift, Cursor.behind_cons, getLast?_cons_or]
      rfl

/-- The first connective in front of a literal. -/
def inFront? (pre : List Char) : Option (Nat × Connective) :=
  search? none Cursor.start (pre ++ ['"']) (lowerText pre ++ ['"'])

/-- The first connective behind a literal, by its distance from the end of the literal. -/
def behind? (pre post : List Char) : Option (Nat × Connective) :=
  search? (some '"') (Cursor.start.behind pre) post (lowerText post)

/-- The first connective around a literal stands in front of it whatever the literal holds, or at a
fixed distance behind it. -/
theorem first?_around {pre b : List Char} (ho : Outside pre) (hI : 'İ' ∉ pre)
    (hb : Literal.Content b) (hIb : 'İ' ∉ b) (post : List Char) :
    first? (around pre b post) =
      (inFront? pre).or ((behind? pre post).map (shift (b.length + 2 + pre.length))) := by
  have hIL : 'İ' ∉ Literal.enclosed b := by simp [Literal.enclosed, hIb]
  have hlower : lowerText (around pre b post) =
      lowerText pre ++ '"' :: lowerText (b ++ '"' :: post) := by
    rw [around_eq, lowerText_append, lowerText_cons (by decide)]
    rfl
  have hliteral : '"' :: (b ++ '"' :: post) = Literal.enclosed b ++ post := by
    simp [Literal.enclosed]
  have hlowerLiteral :
      '"' :: lowerText (b ++ '"' :: post) = lowerText (Literal.enclosed b ++ post) := by
    rw [← hliteral, lowerText_cons (by decide)]
    rfl
  have hskip := search?_skipped
    ((sheltered_enclosed hb (Cursor.start.behind pre).depth).skipped (pre.getLast?.or none) post
      (lowerText (Literal.enclosed b ++ post)))
  rw [drop_lowerText hIL, Cursor.behind_enclosed hb, ← behind_of_outside ho,
    Literal.length_enclosed, Literal.getLast?_enclosed] at hskip
  unfold first?
  rw [hlower, around_eq, search?_quote (length_lowerText hI), hliteral, hlowerLiteral, hskip,
    Option.some_or, map_shift_map_shift]
  rfl

end Connective

/-! ## A negation and a comparison around a literal -/

theorem head?_around (pre b post : List Char) :
    (around pre b post).head? = (pre ++ ['"']).head? := by
  rw [around_eq]
  cases pre <;> rfl

/-- A negation in front of a literal is one whatever the literal holds. -/
theorem negated?_around {pre b post rest : List Char}
    (h : Filter.negated? (around pre b post) = some rest) :
    ∃ x pre', pre = x ++ pre' ∧ Outside x ∧ rest = around pre' b post ∧
      ∀ b', Filter.negated? (around pre b' post) = some (around pre' b' post) := by
  obtain ⟨kw, gap, he, hkw, hgap, hhead, hopen⟩ := Filter.negated?_eq_some_iff.1 h
  have hplain : '"' ∉ kw ++ gap := by
    rw [List.mem_append, not_or]
    exact ⟨fun hq => (plain_of_letters (Filter.letters_of_not hkw).2 _ hq).1 rfl,
      not_mem_of_allBlank (by decide) hgap⟩
  rw [← List.append_assoc] at he
  obtain ⟨pre', rfl, rfl⟩ := exists_split_of_plain hplain he
  refine ⟨kw ++ gap, pre', rfl, outside_of_plain hplain, rfl, fun b' => ?_⟩
  rw [head?_around] at hhead hopen
  refine Filter.negated?_eq_some_iff.2 ⟨kw, gap, ?_, hkw, hgap, ?_, ?_⟩
  · rw [around_append, List.append_assoc]
  · rwa [head?_around]
  · rwa [head?_around]

theorem quote_mem_around (pre b post : List Char) : '"' ∈ around pre b post := by
  rw [around_eq]
  simp

/-- A string with a literal in it begins with that literal. -/
theorem front_eq_nil_of_isString {front b post : List Char} (ho : Outside front)
    (h : Literal.isString (around front b post) = true) : front = [] := by
  cases front with
  | nil => rfl
  | cons c front =>
    have hc : c = '"' := by
      unfold Literal.isString at h
      split at h
      · rename_i he
        exact (List.cons.inj he).1
      · cases h
    subst hc
    obtain ⟨d, rest, hd, rfl⟩ : ∃ d rest, Literal.Content d ∧ front = d ++ '"' :: rest := by
      apply exists_content_of_outside
      unfold Outside at ho
      rwa [place_behind] at ho
    have hafter : Literal.afterString? (around (d ++ '"' :: rest) b post) =
        some (around rest b post) := by
      rw [around_append]
      exact Literal.afterString?_content hd _
    -- the string that is open in front of the literal closes there, so the value goes on behind it
    have hend :
        (Literal.afterString? (around (d ++ '"' :: rest) b post)).any Literal.atEnd = true := h
    rw [hafter] at hend
    have hq := quote_mem_around rest b post
    rcases Literal.atEnd_iff.1 hend with hend | hend <;> rw [hend] at hq
    · cases hq
    · exact absurd hq (by decide)

/-- A literal that begins a value without blanks at its end is the whole of it. -/
theorem post_eq_nil_of_isString {b post : List Char} (hb : Literal.Content b)
    (ht : Trimmed (around [] b post)) (h : Literal.isString (around [] b post) = true) :
    post = [] := by
  have hafter : Literal.afterString? (b ++ ['"'] ++ post) = some post := by
    rw [List.append_assoc]
    exact Literal.afterString?_content hb post
  have hend : (Literal.afterString? (b ++ ['"'] ++ post)).any Literal.atEnd = true := h
  rw [hafter] at hend
  rcases Literal.atEnd_iff.1 hend with rfl | rfl
  · rfl
  · exact absurd rfl (Literal.ne_append_newline ht (Literal.enclosed b))

theorem isString_enclosed {b : List Char} (hb : Literal.Content b) :
    Literal.isString (Literal.enclosed b) = true :=
  Literal.isString_iff.2 ⟨b, hb, .inl rfl⟩

/-- A comparison around a literal has the literal in its value, and it is read with every content in
the place of that of the literal. A literal that begins the value is the whole of it. -/
theorem read_around {pre b post : List Char} {f : Filter} (ho : Outside pre)
    (hb : Literal.Content b) (ht : Trimmed (around pre b post))
    (h : Comparison.read (around pre b post) = .ok f) :
    ∃ path op front, (front = [] → post = []) ∧
      f = .compare path op (String.ofList (around front b post)) ∧
      ∀ b', Literal.Content b' → Comparison.read (around pre b' post) =
        .ok (.compare path op (String.ofList (around front b' post))) := by
  have hwf := Comparison.wellFormed_of_read ht h
  obtain ⟨p, hp, hf⟩ := Comparison.read_eq_ok_iff.1 h
  generalize hT : around pre b post = T at hp
  cases hp with
  | bare hpath hgap hop =>
    have hq := quote_mem_around pre b post
    rw [hT] at hq
    exact absurd hq (Comparison.quote_not_mem_head hpath hgap hop)
  | @valued path gap op gap' value hpath hgap hop hgap' hne hhead =>
    have hplain : '"' ∉ path ++ gap ++ op ++ gap' := by
      rw [List.mem_append, not_or]
      exact ⟨Comparison.quote_not_mem_head hpath hgap hop,
        not_mem_of_allBlank (by decide) hgap'.2⟩
    obtain ⟨front, rfl, rfl⟩ := exists_split_of_plain hplain hT
    rw [outside_append_iff (outside_of_plain hplain)] at ho
    rcases Comparison.Parts.filter_eq_ok_iff.1 hf with ⟨-, hv, -⟩ | ⟨hoperator, -, hq, rfl⟩
    · exact absurd hv hne
    have hvalue : Trimmed (around front b post) := by
      have := hwf.2.2.2.1
      rwa [String.toList_ofList] at this
    have hwhole : front = [] → post = [] := by
      rintro rfl
      exact post_eq_nil_of_isString hb hvalue (hq rfl)
    refine ⟨_, _, front, hwhole, rfl, fun b' hb' => ?_⟩
    have hne' : around front b' post ≠ [] := List.ne_nil_of_mem (quote_mem_around front b' post)
    refine Comparison.read_eq_ok_iff.2 ⟨⟨path, op, around front b' post⟩, ?_,
      Comparison.Parts.filter_eq_ok_iff.2 (.inr ⟨hoperator, hne', fun hquote => ?_, rfl⟩)⟩
    · rw [around_append]
      refine .valued hpath hgap hop hgap' hne' ?_
      rwa [head?_around, ← head?_around front b post]
    · rw [head?_around, ← head?_around front b post] at hquote
      have hfront := front_eq_nil_of_isString ho (hq hquote)
      rw [hfront, hwhole hfront]
      simpa [around] using isString_enclosed hb'

end ScimBridge
