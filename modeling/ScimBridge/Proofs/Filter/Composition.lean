import ScimBridge.Proofs.Filter.Sides

/-!
# Filters made of filters

A filter in parentheses, behind a `not` or on either side of a connective is read as it is read
alone, in any letter case of the words and with any blanks between the parts
(`parse_composed`). The nesting of such a text is that of its parts and at most two levels more
(`nesting_grouped_le` and its neighbours).

1. `reads_bracketed`, `reads_negated`, `reads_joined`: the plain reading.
2. `parse_padded`: what is read so is accepted, if it is not nested too deeply.
-/

namespace ScimBridge

/-! ## The pieces of a composed text -/

theorem trimmed_append_bracketed {cs : List Char}
    (hcs : ∀ c, cs.head? = some c → isBlank c = false) (ds : List Char) :
    Trimmed (cs ++ bracketed ds) := by
  constructor
  · intro c hc
    cases cs with
    | nil =>
      cases hc
      decide
    | cons d cs => exact hcs c hc
  · intro c hc
    rw [List.getLast?_append, getLast?_bracketed] at hc
    cases hc
    decide

namespace Connective

theorem search?_bracketed {cs : List Char} (h : Balanced cs) (before : Option Char)
    (lower : List Char) : search? before Cursor.start (bracketed cs) lower = none := by
  have hs := search?_skipped ((sheltered_group h).skipped before [] lower)
  rw [List.append_nil] at hs
  exact hs

end Connective

namespace Filter

/-! ## A text in parentheses -/

theorem trim_bracketed (cs : List Char) : trim (bracketed cs) = bracketed cs :=
  trim_of_trimmed (@trimmed_append_bracketed [] (by simp) cs)

section Bracketed

variable {cs : List Char} (hcs : Balanced cs)

include hcs

/-- A text in parentheses reads as the text. -/
theorem reads_bracketed {f : Filter} : Reads (bracketed cs) f ↔ Reads cs f := by
  have ht := trim_bracketed cs
  refine reads_group_iff ?_ ?_
  · rw [ht]
    exact Connective.search?_bracketed hcs none _
  · rw [ht]
    exact groupInterior?_group hcs

theorem nesting_bracketed : nesting (bracketed cs) =
    nesting cs + if (Connective.first? (trim cs)).isSome then 1 else 0 := by
  have ht := trim_bracketed cs
  refine nesting_group ?_ ?_
  · rw [ht]
    exact Connective.search?_bracketed hcs none _
  · rw [ht]
    exact groupInterior?_group hcs

theorem nesting_bracketed_le : nesting (bracketed cs) ≤ nesting cs + 1 := by
  rw [nesting_bracketed hcs]
  split <;> omega

/-- The connectives in the text stand in parentheses. -/
theorem passed_trim_bracketed (hI : 'İ' ∉ cs) : Connective.Passed none (trim (bracketed cs)) := by
  rw [trim_bracketed]
  exact Connective.passed_bracketed none hcs hI

end Bracketed

/-! ## A text in parentheses behind `not` -/

section Negated

variable {kw gap cs : List Char} (hkw : lowerText kw = ['n', 'o', 't']) (hgap : allBlank gap = true)
  (hcs : Balanced cs)

include hkw

theorem trim_negated (gap cs : List Char) :
    trim (kw ++ gap ++ bracketed cs) = kw ++ gap ++ bracketed cs := by
  refine trim_of_trimmed (trimmed_append_bracketed (fun c hc => ?_) cs)
  obtain ⟨n, o, t, rfl⟩ := exists_not hkw
  exact (plain_of_letters (letters_of_not hkw).2 c (by simp_all)).2.2.2

theorem groupInterior?_negated (gap cs : List Char) :
    groupInterior? (kw ++ gap ++ bracketed cs) = none := by
  obtain ⟨n, o, t, rfl⟩ := exists_not hkw
  exact groupInterior?_of_ne (plain_of_letters (letters_of_not hkw).2 n (by simp)).2.1 _

include hgap

theorem negated?_bracketed (cs : List Char) :
    negated? (kw ++ gap ++ bracketed cs) = some (bracketed cs) := by
  refine negated?_eq_some_iff.2 ⟨kw, gap, List.append_assoc _ _ _, hkw, hgap, ?_, fun _ => rfl⟩
  intro c hc
  cases hc
  decide

include hcs

theorem first?_negated : Connective.first? (kw ++ gap ++ bracketed cs) = none := by
  obtain ⟨hI, hletters⟩ := letters_of_not hkw
  unfold Connective.first?
  rw [List.append_assoc, (Connective.passed_letters rfl hI hletters).search?,
    (Connective.passed_blanks _ hgap).search?, Connective.search?_bracketed hcs]
  rfl

theorem reads_negated {f : Filter} (hf : Reads cs f) :
    Reads (kw ++ gap ++ bracketed cs) (.not f) := by
  have hn := negated?_bracketed hkw hgap cs
  rw [← trim_negated hkw gap cs] at hn
  refine .negation ?_ ?_ hn ((reads_bracketed hcs).2 hf) <;> rw [trim_negated hkw gap cs]
  · exact first?_negated hkw hgap hcs
  · exact groupInterior?_negated hkw gap cs

theorem nesting_negated : nesting (kw ++ gap ++ bracketed cs) = nesting (bracketed cs) + 1 := by
  have ht := trim_negated hkw gap cs
  refine nesting_negation ?_ ?_ ?_ <;> rw [ht]
  · exact first?_negated hkw hgap hcs
  · exact groupInterior?_negated hkw gap cs
  · exact negated?_bracketed hkw hgap cs

end Negated

/-! ## Two texts in parentheses around a connective -/

section Joined

variable {w : Connective} {kw s t cs ds : List Char} (hkw : lowerText kw = w.word)
  (hs : allBlank s = true) (ht : allBlank t = true) (hcs : Balanced cs) (hI : 'İ' ∉ cs)

/-- The left side, the word and the right side, with blanks around the word. -/
def joined (cs s kw t ds : List Char) : List Char :=
  bracketed cs ++ (s ++ (kw ++ (t ++ bracketed ds)))

theorem trim_joined (cs s kw t ds : List Char) :
    trim (joined cs s kw t ds) = joined cs s kw t ds :=
  trim_of_trimmed (Connective.trimmed_spaced (trimmed_of_trim_eq (trim_bracketed cs))
    (trimmed_of_trim_eq (trim_bracketed ds)) (List.cons_ne_nil _ _) (List.cons_ne_nil _ _) s kw t)

include hkw hs ht

theorem between_joined (cs ds : List Char) :
    Connective.Between w (bracketed cs) s kw t (bracketed ds) :=
  .of_blanks hs hkw ht (fun _ => getLast?_bracketed cs) fun _ => rfl

include hcs

theorem balanced_joined (hds : Balanced ds) : Balanced (joined cs s kw t ds) :=
  Connective.balanced_spaced (between_joined hkw hs ht cs ds) (balanced_bracketed hcs)
    (balanced_bracketed hds)

include hI

theorem reads_joined (hds : Balanced ds) {f g : Filter} (hf : Reads cs f) (hg : Reads ds g) :
    Reads (joined cs s kw t ds) (w.join f g) :=
  reads_spaced (between_joined hkw hs ht cs ds) (passed_trim_bracketed hcs hI)
    ((reads_bracketed hcs).2 hf) ((reads_bracketed hds).2 hg)

theorem nesting_joined (ds : List Char) : nesting (joined cs s kw t ds) =
    max (nesting (bracketed cs)) (nesting (bracketed ds)) := by
  refine nesting_spaced (between_joined hkw hs ht cs ds) (passed_trim_bracketed hcs hI) ?_ ?_ <;>
    rw [trim_bracketed] <;> exact List.cons_ne_nil _ _

end Joined

/-- The group on the left closes before the end, so the whole is no group. -/
theorem groupInterior?_joined {cs s kw t ds : List Char} (hcs : Balanced cs) :
    groupInterior? (joined cs s kw t ds) = none := by
  refine Option.eq_none_iff_forall_ne_some.2 fun inner hi => ?_
  obtain ⟨he, hc⟩ := groupInterior?_eq_some_iff.1 hi
  have hgroup : closingIndex? Cursor.start (bracketed cs) = some (cs.length + 1) :=
    closingIndex?_group hcs
  have hlen := congrArg List.length he
  rw [joined, closingIndex?_append, hgroup, Option.some_or] at hc
  have := Option.some.inj hc
  simp only [joined, bracketed, List.length_append, List.length_cons, List.length_nil] at hlen
  omega

/-! ## Composed filters -/

/-- A string of blanks. -/
def Blanks : Type := { s : String // allBlank s.toList = true }

/-- A word in any letter case. -/
def Spelling (word : List Char) : Type := { s : String // lowerText s.toList = word }

/-- A filter in parentheses, with blanks around it. -/
def grouped (p : Blanks) (f : String) (q : Blanks) : String := "(" ++ p.1 ++ f ++ q.1 ++ ")"

/-- A `not` and a group. -/
def notGrouped (n : Spelling ['n', 'o', 't']) (r p : Blanks) (f : String) (q : Blanks) : String :=
  n.1 ++ r.1 ++ grouped p f q

/-- Two groups around a word. -/
def joinGrouped {word : List Char} (p : Blanks) (f : String) (q s : Blanks) (k : Spelling word)
    (t p' : Blanks) (g : String) (q' : Blanks) : String :=
  grouped p f q ++ s.1 ++ k.1 ++ t.1 ++ grouped p' g q'

/-- Blanks around a whole text. -/
def padded (u : Blanks) (s : String) (v : Blanks) : String := u.1 ++ s ++ v.1

theorem toList_grouped (p : Blanks) (f : String) (q : Blanks) :
    (grouped p f q).toList = bracketed (p.1.toList ++ f.toList ++ q.1.toList) := by
  simp [grouped, bracketed]

theorem toList_notGrouped (n : Spelling ['n', 'o', 't']) (r p : Blanks) (f : String) (q : Blanks) :
    (notGrouped n r p f q).toList =
      n.1.toList ++ r.1.toList ++ bracketed (p.1.toList ++ f.toList ++ q.1.toList) := by
  simp [notGrouped, toList_grouped]

theorem toList_joinGrouped {word : List Char} (p : Blanks) (f : String) (q s : Blanks)
    (k : Spelling word) (t p' : Blanks) (g : String) (q' : Blanks) :
    (joinGrouped p f q s k t p' g q').toList =
      joined (p.1.toList ++ f.toList ++ q.1.toList) s.1.toList k.1.toList t.1.toList
        (p'.1.toList ++ g.toList ++ q'.1.toList) := by
  simp [joinGrouped, joined, toList_grouped]

theorem balanced_pad (u : Blanks) {cs : List Char} (h : Balanced cs) (v : Blanks) :
    Balanced (u.1.toList ++ cs ++ v.1.toList) :=
  ((balanced_of_allBlank u.2).append h).append (balanced_of_allBlank v.2)

/-- A balanced text that reads as a filter is accepted with it, with blanks around it, if it is not
nested too deeply. -/
theorem parse_padded (u : Blanks) {s : String} {f : Filter} (hb : Balanced s.toList)
    (hr : Reads s.toList f) (v : Blanks) (h : nesting s.toList < nestingLimit) :
    parse (padded u s v) = .ok f := by
  have hs : (padded u s v).toList = u.1.toList ++ s.toList ++ v.1.toList := by simp [padded]
  rw [parse_eq_ok_iff, hs, reads_pad u.2 v.2, nesting_pad u.2 v.2]
  exact ⟨balanced_pad u hb v, hr, h⟩

theorem not_mem_inner {f : String} (hI : 'İ' ∉ f.toList) (p q : Blanks) :
    'İ' ∉ p.1.toList ++ f.toList ++ q.1.toList := by
  simp only [List.mem_append, not_or]
  exact ⟨⟨not_mem_of_allBlank (by decide) p.2, hI⟩, not_mem_of_allBlank (by decide) q.2⟩

section Composed

variable {f g : String} {a b : Filter} (hf : parse f = .ok a) (hg : parse g = .ok b)

include hf

theorem balanced_inner (p q : Blanks) : Balanced (p.1.toList ++ f.toList ++ q.1.toList) :=
  balanced_pad p (parse_eq_ok_iff.1 hf).1 q

theorem reads_inner (p q : Blanks) : Reads (p.1.toList ++ f.toList ++ q.1.toList) a :=
  (reads_pad p.2 q.2 f.toList).2 (parse_eq_ok_iff.1 hf).2.1

theorem nesting_grouped_le (p q : Blanks) :
    nesting (grouped p f q).toList ≤ nesting f.toList + 1 := by
  have h := nesting_bracketed_le (balanced_inner hf p q)
  rw [nesting_pad p.2 q.2] at h
  rwa [toList_grouped]

theorem nesting_notGrouped_le (n : Spelling ['n', 'o', 't']) (r p q : Blanks) :
    nesting (notGrouped n r p f q).toList ≤ nesting f.toList + 2 := by
  have h := nesting_grouped_le hf p q
  rw [toList_grouped] at h
  rw [toList_notGrouped, nesting_negated n.2 r.2 (balanced_inner hf p q)]
  omega

include hg

theorem nesting_joinGrouped_le (hI : 'İ' ∉ f.toList) {w : Connective} (k : Spelling w.word)
    (p q s t p' q' : Blanks) :
    nesting (joinGrouped p f q s k t p' g q').toList ≤
      max (nesting f.toList) (nesting g.toList) + 1 := by
  have hl := nesting_grouped_le hf p q
  have hr := nesting_grouped_le hg p' q'
  rw [toList_grouped] at hl hr
  rw [toList_joinGrouped, nesting_joined k.2 s.2 t.2 (balanced_inner hf p q)
    (not_mem_inner hI p q)]
  omega

end Composed

/-- **Filters compose.** A filter in parentheses is read as the filter, behind a `not` as its
negation, and two filters in parentheses around a connective as their join, in any letter case of
the words and with any blanks between the parts, as far as the nesting stays within the limit. No
dotted capital I may stand in front of a connective. -/
theorem parse_composed {f g : String} {a b : Filter} (hf : parse f = .ok a) (hg : parse g = .ok b)
    (u p q v : Blanks) :
    (nesting (grouped p f q).toList < nestingLimit → parse (padded u (grouped p f q) v) = .ok a) ∧
    (∀ (n : Spelling ['n', 'o', 't']) (r : Blanks),
      nesting (notGrouped n r p f q).toList < nestingLimit →
        parse (padded u (notGrouped n r p f q) v) = .ok (.not a)) ∧
    ∀ (w : Connective) (k : Spelling w.word) (s t p' q' : Blanks), 'İ' ∉ f.toList →
      nesting (joinGrouped p f q s k t p' g q').toList < nestingLimit →
        parse (padded u (joinGrouped p f q s k t p' g q') v) = .ok (w.join a b) := by
  have hbf := balanced_inner hf p q
  have hrf := reads_inner hf p q
  refine ⟨fun hn => ?_, fun n r hn => ?_, fun w k s t p' q' hI hn => ?_⟩
  · refine parse_padded u ?_ ?_ v hn <;> rw [toList_grouped]
    · exact balanced_bracketed hbf
    · exact (reads_bracketed hbf).2 hrf
  · refine parse_padded u ?_ ?_ v hn <;> rw [toList_notGrouped]
    · exact ((balanced_of_letters (letters_of_not n.2).2).append (balanced_of_allBlank r.2)).append
        (balanced_bracketed hbf)
    · exact reads_negated n.2 r.2 hbf hrf
  · have hbg := balanced_inner hg p' q'
    have hrg := reads_inner hg p' q'
    refine parse_padded u ?_ ?_ v hn <;> rw [toList_joinGrouped]
    · exact balanced_joined k.2 s.2 t.2 hbf hbg
    · exact reads_joined k.2 s.2 t.2 hbf (not_mem_inner hI p q) hbg hrf hrg

/-- A string that holds parentheses and a connective, on the left of a connective in capitals. -/
theorem parse_composed_of_strings :
    parse " ( a eq \"x) or (y\" )OR  (b pr)" =
      .ok (.or (.compare "a" "eq" "\"x) or (y\"") (.present "b")) := by
  have hf : parse "a eq \"x) or (y\"" = .ok (.compare "a" "eq" "\"x) or (y\"") :=
    eq_ok_of_toOption (by decide +kernel)
  have hg : parse "b pr" = .ok (.present "b") := eq_ok_of_toOption (by decide +kernel)
  have h := (parse_composed hf hg ⟨" ", by decide⟩ ⟨" ", by decide⟩ ⟨" ", by decide⟩
    ⟨"", by decide⟩).2.2 .or ⟨"OR", by decide⟩ ⟨"", by decide⟩ ⟨"  ", by decide⟩ ⟨"", by decide⟩
    ⟨"", by decide⟩ (by decide) (by decide +kernel)
  exact h

end Filter

end ScimBridge
