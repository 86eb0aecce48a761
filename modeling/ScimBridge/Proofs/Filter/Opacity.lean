import ScimBridge.Proofs.Filter.Composition
import ScimBridge.Proofs.Filter.Replacement

/-!
# What literals may hold

The reader does not look into a literal: with another content in its place the text reads as the
same filter but for the value that the literal stands in (`Reads.replace`). The one exception is the
dotted capital I, whose lower case is two characters long. Behind it connectives are looked for in
the wrong place, and for every content with this character there is a filter that is no longer
accepted (`literals_opaque`).

1. `Site`: what stands in front of the literal; it stays a site as the reader walks towards the
   literal (`site_of_search?`).
2. `Reads.replace`: by induction on the reading, one case for each of the four situations.
3. `not_reads_shifted`: the search behind a content with dotted capitals.
-/

namespace ScimBridge

open Literal (Content)

/-! ## The place of a literal -/

/-- What may stand in front of a literal: a text that ends outside literals, without the dotted
capital I. -/
structure Site (pre : List Char) : Prop where
  outside : Outside pre
  plain : 'İ' ∉ pre

/-- The content of a literal, without the dotted capital I. -/
structure PlainContent (b : List Char) : Prop where
  content : Content b
  plain : 'İ' ∉ b

theorem Site.trimStart {pre : List Char} (h : Site pre) : Site (trimStart pre) :=
  ⟨outside_trimStart h.outside, fun hI => h.plain ((List.dropWhile_sublist isBlank).mem hI)⟩

theorem Site.of_append {x pre : List Char} (hx : Outside x) (h : Site (x ++ pre)) : Site pre :=
  ⟨(outside_append_iff hx).1 h.outside, fun hI => h.plain (List.mem_append_right x hI)⟩

/-- Behind a connective that is found in front of the literal, the rest is a site again. -/
theorem site_of_search? {pre : List Char} (h : Site pre) {i : Nat} {w : Connective}
    (hs : Connective.inFront? pre = some (i, w)) :
    i + w.word.length ≤ pre.length ∧ Site (pre.drop (i + w.word.length)) := by
  obtain ⟨hcur, hstands⟩ := Connective.search?_eq_some hs
  obtain ⟨hword, c, hc, hend⟩ := Connective.standsAt_iff.1 hstands
  rw [List.getElem?_drop] at hc
  have hlt : i + w.word.length < pre.length := by
    by_contra hge
    rw [List.getElem?_append_right (Nat.not_lt.1 hge)] at hc
    have hq : c = '"' := by simpa using List.mem_of_getElem? hc
    subst hq
    rcases hend with h | h <;> cases h
  have hi : i ≤ pre.length := by omega
  rw [List.take_append_of_le_length hi] at hcur
  have hsplit : pre.take i ++ pre.drop i = pre := List.take_append_drop i pre
  have hIi : 'İ' ∉ pre.take i := fun hI => h.plain (List.mem_of_mem_take hI)
  have hlower : (lowerText pre).drop i = lowerText (pre.drop i) := by
    have := drop_lowerText hIi (pre.drop i)
    rwa [hsplit, List.length_take_of_le hi] at this
  rw [List.drop_append_of_le_length (by rw [length_lowerText h.plain]; exact hi), hlower,
    isPrefix_append_quote_iff (Connective.quote_not_mem_word w)] at hword
  have htake : lowerText ((pre.drop i).take w.word.length) = w.word := by
    have hI : 'İ' ∉ pre.drop i := fun hI => h.plain (List.mem_of_mem_drop hI)
    rw [List.prefix_iff_eq_take, lowerText_eq_map hI, ← List.map_take] at hword
    rw [lowerText_eq_map fun h => hI (List.mem_of_mem_take h)]
    exact hword.symm
  have hletters := (Connective.letters_of_word htake).2
  have hplain : '"' ∉ (pre.drop i).take w.word.length :=
    fun hq => (plain_of_letters hletters _ hq).1 rfl
  refine ⟨Nat.le_of_lt hlt, ?_⟩
  have hout : Outside (pre.take i) := by
    unfold Outside
    rw [hcur]
    rfl
  have hsite : Site (pre.drop i) := .of_append hout (by rwa [hsplit])
  rw [← List.drop_drop]
  refine .of_append (outside_of_plain hplain) ?_
  rwa [List.take_append_drop]

namespace Filter

/-! ## A filter with a place for a content -/

/-- A filter in which one value has a literal whose content is left open. A literal that begins the
value is the whole of it. -/
inductive Hole where
  | value (path op : String) (front back : List Char) (whole : front = [] → back = [])
  | not (inner : Hole)
  | left (w : Connective) (inner : Hole) (r : Filter)
  | right (w : Connective) (l : Filter) (inner : Hole)

/-- The filter with a content filled in. -/
def Hole.fill (b : List Char) : Hole → Filter
  | .value path op front back _ => .compare path op (String.ofList (around front b back))
  | .not inner => .not (inner.fill b)
  | .left w inner r => w.join (inner.fill b) r
  | .right w l inner => w.join l (inner.fill b)

section Scans

variable {pre b b' post : List Char} (hs : Site pre) (hb : PlainContent b) (hb' : PlainContent b')

include hs hb hb'

theorem isSome_first?_around :
    (Connective.first? (around pre b post)).isSome =
      (Connective.first? (around pre b' post)).isSome := by
  rw [Connective.first?_around hs.outside hs.plain hb.content hb.plain,
    Connective.first?_around hs.outside hs.plain hb'.content hb'.plain]
  simp only [Option.isSome_or, Option.isSome_map]

theorem first?_around_eq_none (h : Connective.first? (around pre b post) = none) :
    Connective.first? (around pre b' post) = none := by
  have hsome := @isSome_first?_around pre b' b post hs hb' hb
  rw [h] at hsome
  exact Option.isNone_iff_eq_none.1 (Option.isSome_eq_false_iff.1 hsome)

omit hb' in
theorem groupInterior?_around_eq_none (hc : Content b')
    (h : groupInterior? (around pre b post) = none) :
    groupInterior? (around pre b' post) = none := by
  refine Option.eq_none_iff_forall_ne_some.2 fun inner hi => ?_
  obtain ⟨pre', post', -, -, hgroup⟩ := groupInterior?_around hs.outside hc hi
  rw [hgroup b hb.content] at h
  cases h

end Scans

theorem negated?_around_eq_none {pre b post : List Char} (b' : List Char)
    (h : negated? (around pre b post) = none) : negated? (around pre b' post) = none := by
  refine Option.eq_none_iff_forall_ne_some.2 fun rest hr => ?_
  obtain ⟨x, pre', -, -, -, hnot⟩ := negated?_around hr
  rw [hnot b] at h
  cases h

/-! ## The reading around a literal -/

/-- What is read around a literal, with every plain content, and how deeply it is nested. -/
def ReadsAround (pre post : List Char) (C : Hole) (levels : Nat) : Prop :=
  ∀ b, PlainContent b → Reads (around pre b post) (C.fill b) ∧ nesting (around pre b post) = levels

section Steps

variable {pre post P Q : List Char} (htrim : ∀ b, trim (around pre b post) = around P b Q)
  (hs : Site P)

include htrim hs

/-- The connectives in front of the literal and behind it. -/
theorem first?_trim_around {b : List Char} (hb : PlainContent b) :
    Connective.first? (trim (around pre b post)) =
      (Connective.inFront? P).or
        ((Connective.behind? P Q).map (Connective.shift (b.length + 2 + P.length))) := by
  rw [htrim]
  exact Connective.first?_around hs.outside hs.plain hb.content hb.plain Q

theorem ReadsAround.right {i : Nat} {w : Connective} {l : Filter} {C : Hole} {levels : Nat}
    (hfront : Connective.inFront? P = some (i, w))
    (hl : Reads (P.take i) l) (hC : ReadsAround (P.drop (i + w.word.length)) Q C levels) :
    ReadsAround pre post (.right w l C) (max (nesting (P.take i)) levels) := by
  intro b hb
  obtain ⟨hle, -⟩ := site_of_search? hs hfront
  obtain ⟨hr, hn⟩ := hC b hb
  have hc : Connective.first? (trim (around pre b post)) = some (i, w) := by
    rw [first?_trim_around htrim hs hb, hfront]
    rfl
  have htake : (trim (around pre b post)).take i = P.take i := by
    rw [htrim, take_around (by omega)]
  have hdrop : (trim (around pre b post)).drop (i + w.word.length) =
      around (P.drop (i + w.word.length)) b Q := by
    rw [htrim, drop_around hle]
  constructor
  · exact (reads_chain_iff hc).2 ⟨l, C.fill b, rfl, by rwa [htake], by rwa [hdrop]⟩
  · rw [nesting_chain hc, htake, hdrop, hn]

theorem ReadsAround.left {j : Nat} {w : Connective} {r : Filter} {C : Hole} {levels : Nat}
    (hfront : Connective.inFront? P = none)
    (hback : Connective.behind? P Q = some (j, w))
    (hr : Reads (Q.drop (j + w.word.length)) r) (hC : ReadsAround P (Q.take j) C levels) :
    ReadsAround pre post (.left w C r) (max levels (nesting (Q.drop (j + w.word.length)))) := by
  intro b hb
  obtain ⟨hl, hn⟩ := hC b hb
  have hc : Connective.first? (trim (around pre b post)) =
      some (j + (b.length + 2 + P.length), w) := by
    rw [first?_trim_around htrim hs hb, hfront, hback]
    rfl
  have htake : (trim (around pre b post)).take (j + (b.length + 2 + P.length)) =
      around P b (Q.take j) := by
    rw [htrim, take_around_behind]
  have hdrop : (trim (around pre b post)).drop (j + (b.length + 2 + P.length) + w.word.length) =
      Q.drop (j + w.word.length) := by
    rw [htrim, Nat.add_right_comm, drop_around_behind]
  constructor
  · exact (reads_chain_iff hc).2 ⟨C.fill b, r, rfl, by rwa [htake], by rwa [hdrop]⟩
  · rw [nesting_chain hc, htake, hdrop, hn]

/-- Without a connective at the top, a group around the literal is one level deeper if it holds a
connective, which does not depend on the content either. -/
theorem ReadsAround.group {b₀ inner : List Char} (hb₀ : PlainContent b₀)
    (hc : Connective.first? (around P b₀ Q) = none)
    (hg : groupInterior? (around P b₀ Q) = some inner) :
    ∃ P' Q', Site P' ∧ inner = around P' b₀ Q' ∧ ∀ C levels,
      ReadsAround P' Q' C levels → ∃ levels', ReadsAround pre post C levels' := by
  obtain ⟨P', Q', rfl, rfl, hgroup⟩ := groupInterior?_around hs.outside hb₀.content hg
  have hs' : Site P' := @Site.of_append ['('] P' rfl hs
  refine ⟨P', Q', hs', rfl, fun C levels hC => ?_⟩
  refine ⟨levels +
    if (Connective.first? (trim (around P' b₀ Q'))).isSome then 1 else 0, fun b hb => ?_⟩
  obtain ⟨hr, hn⟩ := hC b hb
  have hc' := first?_around_eq_none hs hb₀ hb hc
  have hg' := hgroup b hb.content
  rw [← htrim] at hc' hg'
  refine ⟨(reads_group_iff hc' hg').2 hr, ?_⟩
  rw [nesting_group hc' hg', hn, trim_around_literal, trim_around_literal,
    isSome_first?_around hs'.trimStart hb hb₀]

theorem ReadsAround.not {b₀ rest : List Char} (hb₀ : PlainContent b₀)
    (hc : Connective.first? (around P b₀ Q) = none) (hg : groupInterior? (around P b₀ Q) = none)
    (hn : negated? (around P b₀ Q) = some rest) :
    ∃ P', Site P' ∧ rest = around P' b₀ Q ∧ ∀ C levels,
      ReadsAround P' Q C levels → ReadsAround pre post (.not C) (levels + 1) := by
  obtain ⟨x, P', rfl, hx, rfl, hnot⟩ := negated?_around hn
  refine ⟨P', .of_append hx hs, rfl, fun C levels hC b hb => ?_⟩
  obtain ⟨hr, hlevels⟩ := hC b hb
  have hc' := first?_around_eq_none hs hb₀ hb hc
  have hg' := groupInterior?_around_eq_none hs hb₀ hb.content hg
  have hn' := hnot b
  rw [← htrim] at hc' hg' hn'
  refine ⟨(reads_negation_iff hc' hg' hn').2 ⟨C.fill b, rfl, hr⟩, ?_⟩
  rw [nesting_negation hc' hg' hn', hlevels]

end Steps

/-- What is read with one plain content is read with all of them. -/
theorem Reads.replace {b : List Char} (hb : PlainContent b) {cs : List Char} {f : Filter}
    (h : Reads cs f) : ∀ {pre post : List Char}, cs = around pre b post → Site pre →
      ∃ C levels, f = C.fill b ∧ ReadsAround pre post C levels := by
  induction h with
  | @chain cs i w l r hc hl hr ihl ihr =>
    rintro pre post rfl hs
    have hs := hs.trimStart
    have htrim := fun b => trim_around_literal pre b post
    rw [first?_trim_around htrim hs hb] at hc
    rw [htrim] at hl hr
    simp only [htrim] at ihl ihr
    cases hfront : Connective.inFront? (trimStart pre) with
    | some p =>
      -- the connective stands in front of the literal, which is on its right side
      rw [hfront] at hc
      cases hc
      obtain ⟨hle, hs'⟩ := site_of_search? hs hfront
      rw [take_around (by omega)] at hl
      obtain ⟨C, levels, rfl, hC⟩ := ihr (drop_around hle b _) hs'
      exact ⟨.right w l C, _, rfl, .right htrim hs hfront hl hC⟩
    | none =>
      -- the connective stands behind the literal, which is on its left side
      rw [hfront, Option.none_or] at hc
      obtain ⟨⟨j, v⟩, hback, he⟩ := Option.map_eq_some_iff.1 hc
      cases he
      have hr : Reads ((around (trimStart pre) b (trimEnd post)).drop
          (j + (b.length + 2 + (trimStart pre).length) + v.word.length)) r := hr
      rw [Nat.add_right_comm, drop_around_behind] at hr
      obtain ⟨C, levels, rfl, hC⟩ := ihl (take_around_behind _ b _ j) hs
      exact ⟨.left v C r, _, rfl, .left htrim hs hfront hback hr hC⟩
  | @group cs inner f hc hg hi ih =>
    rintro pre post rfl hs
    have hs := hs.trimStart
    have htrim := fun b => trim_around_literal pre b post
    rw [htrim] at hc hg
    obtain ⟨P', Q', hs', he, hgroup⟩ := ReadsAround.group htrim hs hb hc hg
    obtain ⟨C, levels, rfl, hC⟩ := ih he hs'
    obtain ⟨levels', hC'⟩ := hgroup C levels hC
    exact ⟨C, levels', rfl, hC'⟩
  | @negation cs rest f hc hg hn hi ih =>
    rintro pre post rfl hs
    have hs := hs.trimStart
    have htrim := fun b => trim_around_literal pre b post
    rw [htrim] at hc hg hn
    obtain ⟨P', hs', he, hnot⟩ := ReadsAround.not htrim hs hb hc hg hn
    obtain ⟨C, levels, rfl, hC⟩ := ih he hs'
    exact ⟨.not C, levels + 1, rfl, hnot C levels hC⟩
  | @comparison cs f hc hg hn hr =>
    rintro pre post rfl hs
    have hs := hs.trimStart
    have ht := trimmed_trim (around pre b post)
    rw [trim_around_literal] at hc hg hn hr ht
    obtain ⟨path, op, front, hwhole, rfl, hread⟩ := read_around hs.outside hb.content ht hr
    refine ⟨.value path op front (trimEnd post) hwhole, 0, rfl, fun b' hb' => ?_⟩
    have hc' := first?_around_eq_none hs hb hb' hc
    have hg' := groupInterior?_around_eq_none hs hb hb'.content hg
    have hn' := negated?_around_eq_none b' hn
    rw [← trim_around_literal] at hc' hg' hn'
    refine ⟨.comparison hc' hg' hn' ?_, nesting_comparison hc' hg' hn'⟩
    rw [trim_around_literal]
    exact hread b' hb'.content

/-! ## Contents with dotted capitals -/

/-- A comparison with a content, and a number of blanks behind the literal. -/
def delayed (b : List Char) (k : Nat) : List Char :=
  ['a', ' ', 'e', 'q', ' '] ++ Literal.enclosed b ++ List.replicate k ' '

/-- What stands behind the literal if the comparison is the left side of a connective. -/
def delay (k : Nat) : List Char :=
  List.replicate k ' ' ++ (')' :: ['a', 'n', 'd'] ++ bracketed ['b', ' ', 'p', 'r'])

theorem allBlank_replicate (k : Nat) : allBlank (List.replicate k ' ') = true :=
  allBlank_iff.2 fun _ hc => List.eq_of_mem_replicate hc ▸ rfl

/-- The comparison and a presence test around a connective. -/
def probe (b : List Char) (k : Nat) : List Char :=
  joined (delayed b k) [] ['a', 'n', 'd'] [] ['b', ' ', 'p', 'r']

theorem probe_eq (b : List Char) (k : Nat) :
    probe b k = around ['(', 'a', ' ', 'e', 'q', ' '] b (delay k) := by
  simp [probe, joined, delayed, delay, bracketed, around]

theorem balanced_delayed {b : List Char} (hb : Content b) (k : Nat) : Balanced (delayed b k) := by
  have hliteral : Balanced (Literal.enclosed b) := by
    have := Balanced.literal hb .nil
    rwa [List.append_nil] at this
  exact ((balanced_of_plain (by simp)).append hliteral).append
    (balanced_of_allBlank (allBlank_replicate k))

section Shifted

variable {b : List Char} (hI : 'İ' ∈ b)

include hI

/-- With as many blanks as there are dotted capitals, the lower case of the comparison is longer
than the comparison by these blanks: at the index of the connective there is still one of them, or
the parenthesis. -/
theorem drop_lowerText_delayed (rest : List Char) :
    ∃ c lower, (c = ' ' ∨ c = ')') ∧
      (lowerText (bracketed (delayed b (b.count 'İ')) ++ rest)).drop
        (bracketed (delayed b (b.count 'İ'))).length = c :: lower := by
  obtain ⟨k, hk⟩ := Nat.exists_eq_add_one.2 (List.count_pos_iff.2 hI)
  let head := ['(', 'a', ' ', 'e', 'q', ' '] ++ Literal.enclosed b
  have hsplit : bracketed (delayed b (b.count 'İ')) ++ rest =
      head ++ (List.replicate (k + 1) ' ' ++ ')' :: rest) := by
    simp [head, bracketed, delayed, hk]
  have hlength : (bracketed (delayed b (b.count 'İ'))).length = (lowerText head).length + 1 := by
    have hcount : head.count 'İ' = b.count 'İ' := by simp [head, Literal.enclosed]
    rw [length_lowerText_eq, hcount]
    simp [head, bracketed, delayed, Literal.enclosed]
    omega
  have hblanks : lowerText (List.replicate (k + 1) ' ' ++ ')' :: rest) =
      ' ' :: (List.replicate k ' ' ++ ')' :: lowerText rest) := by
    rw [lowerText_append, lowerText_blanks (allBlank_replicate (k + 1)), lowerText_cons (by decide),
      List.replicate_succ]
    rfl
  -- the lower case of the text up to the literal ends one character in front of the index
  rw [hsplit, hlength, lowerText_append head, List.drop_length_add_append, hblanks,
    List.drop_succ_cons, List.drop_zero]
  cases k with
  | zero => exact ⟨')', _, .inr rfl, rfl⟩
  | succ k => exact ⟨' ', _, .inl rfl, rfl⟩

variable (hb : Content b)

include hb

/-- The connective behind a content with dotted capitals is not found. -/
theorem first?_shifted : Connective.first? (probe b (b.count 'İ')) = none := by
  have hds : Balanced ['b', ' ', 'p', 'r'] := balanced_of_plain (by simp)
  have hcs := balanced_delayed hb (b.count 'İ')
  obtain ⟨c, lower, hc, hdrop⟩ :=
    drop_lowerText_delayed hI (['a', 'n', 'd'] ++ bracketed ['b', ' ', 'p', 'r'])
  have hat (cs : List Char) : Connective.at? cs (c :: lower) = none := by
    refine List.find?_eq_none.2 fun w _ hw => ?_
    obtain ⟨t, ht⟩ := (Connective.standsAt_iff.1 hw).1
    rcases hc with rfl | rfl <;> cases w <;> cases ht
  have hsheltered : Connective.Sheltered Cursor.start (bracketed (delayed b (b.count 'İ'))) :=
    Connective.sheltered_group hcs
  -- at the first letter the lower case has no word, and behind it no word can begin
  have hword (before : Option Char) : Connective.Skipped before Cursor.start ['a', 'n', 'd']
      (bracketed ['b', ' ', 'p', 'r']) (c :: lower) := by
    refine ⟨?_, Connective.skipped_word rfl (plain_of_letters (List.all_eq_true.1 (by decide))) _ _⟩
    unfold Connective.here?
    rw [hat, ite_self]
  unfold Connective.first? probe joined
  rw [List.nil_append, List.nil_append, Connective.search?_skipped (hsheltered.skipped none _ _),
    hdrop, Cursor.start, Cursor.behind_balanced (balanced_bracketed hcs)]
  show (Connective.search? _ Cursor.start _ _).map _ = none
  rw [Connective.search?_skipped (hword _)]
  show ((Connective.search? _ Cursor.start (bracketed ['b', ' ', 'p', 'r']) _).map _).map _ = none
  rw [Connective.search?_bracketed hds]
  rfl

/-- With a dotted capital in the content nothing is read: the connective is not found, and the text
begins with a parenthesis that closes before its end. -/
theorem not_reads_shifted (f : Filter) : ¬ Reads (probe b (b.count 'İ')) f := by
  have htrim : trim (probe b (b.count 'İ')) = probe b (b.count 'İ') := trim_joined _ _ _ _ _
  have hfirst := first?_shifted hI hb
  have hgroup : groupInterior? (probe b (b.count 'İ')) = none :=
    groupInterior?_joined (balanced_delayed hb _)
  have hnot : negated? (probe b (b.count 'İ')) = none := negated?_open _
  rw [← htrim] at hfirst hgroup hnot
  rw [reads_comparison_iff hfirst hgroup hnot, htrim]
  intro hr
  obtain ⟨p, hp, -⟩ := Comparison.read_eq_ok_iff.1 hr
  obtain ⟨c, rest, he, hc⟩ := hp.head
  cases (List.cons.inj he).1
  cases hc

end Shifted

/-- With a plain content the filter is accepted, with any number of blanks. -/
theorem parse_delay (k : Nat) :
    parse (String.ofList (around ['(', 'a', ' ', 'e', 'q', ' '] ['x'] (delay k))) =
      .ok (.and (.compare "a" "eq" "\"x\"") (.present "b")) := by
  have hleft : parse "a eq \"x\"" = .ok (.compare "a" "eq" "\"x\"") :=
    eq_ok_of_toOption (by decide +kernel)
  have hright : parse "b pr" = .ok (.present "b") := eq_ok_of_toOption (by decide +kernel)
  have hx : Content ['x'] := .plain (by decide) (by decide) .nil
  have hbl := balanced_delayed hx k
  have hbr : Balanced ['b', ' ', 'p', 'r'] := balanced_of_plain (by simp)
  have hI : 'İ' ∉ delayed ['x'] k := by simp [delayed, Literal.enclosed]
  have hrl : Reads (delayed ['x'] k) (.compare "a" "eq" "\"x\"") :=
    (reads_pad (u := []) rfl (allBlank_replicate k) _).2 (parse_eq_ok_iff.1 hleft).2.1
  have hnl : nesting (delayed ['x'] k) = 0 :=
    (nesting_pad (u := []) rfl (allBlank_replicate k) _).trans (by decide +kernel)
  rw [parse_eq_ok_iff, String.toList_ofList, ← probe_eq]
  refine ⟨@balanced_joined .and _ _ _ _ _ rfl rfl rfl hbl hbr, @reads_joined .and _ _ _ _ _
    rfl rfl rfl hbl hI hbr _ _ hrl (parse_eq_ok_iff.1 hright).2.1, ?_⟩
  unfold probe
  rw [@nesting_joined .and _ _ _ _ rfl rfl rfl hbl hI]
  have h := nesting_bracketed_le hbl
  rw [hnl] at h
  have hr : nesting (bracketed ['b', ' ', 'p', 'r']) = 0 := by decide +kernel
  rw [hr, nestingLimit]
  omega

/-! ## Opacity -/

/-- A text with a literal between two others. -/
def withLiteral (pre : String) (b : List Char) (post : String) : String :=
  pre ++ String.ofList (Literal.enclosed b) ++ post

theorem toList_withLiteral (pre : String) (b : List Char) (post : String) :
    (withLiteral pre b post).toList = around pre.toList b post.toList := by
  simp [withLiteral, around]

theorem withLiteral_ofList (pre b post : List Char) :
    withLiteral (String.ofList pre) b (String.ofList post) = String.ofList (around pre b post) := by
  simp [withLiteral, around, String.append_assoc]

/-- The filter is accepted with the old content and refused with the new one. -/
def Breaks (pre post : String) (old new : List Char) : Prop :=
  (∃ n, parse (withLiteral pre old post) = .ok n) ∧
    ∀ m, parse (withLiteral pre (Literal.escape new) post) ≠ .ok m

/-- Every plain content between the two texts is accepted and read into the same place. -/
def Hole.ReadAt (C : Hole) (pre post : String) : Prop :=
  ∀ b, PlainContent b → parse (withLiteral pre b post) = .ok (C.fill b)

/-- A filter that is accepted with one plain content is accepted with all of them, and what is read
differs in the one value only. -/
theorem exists_readAt {pre post : String} {b : List Char} {n : Filter} (hs : Site pre.toList)
    (hb : PlainContent b) (h : parse (withLiteral pre b post) = .ok n) :
    ∃ C : Hole, Hole.ReadAt C pre post ∧ n = C.fill b := by
  rw [parse_eq_ok_iff, toList_withLiteral] at h
  obtain ⟨hbalanced, hreads, hnesting⟩ := h
  obtain ⟨C, levels, rfl, hC⟩ := hreads.replace hb rfl hs
  refine ⟨C, fun b' hb' => ?_, rfl⟩
  rw [parse_eq_ok_iff, toList_withLiteral]
  refine ⟨balanced_around hs.outside hb.content hb'.content hbalanced, (hC b' hb').1, ?_⟩
  rwa [(hC b' hb').2, ← (hC b hb).2]

/-- Every content with a dotted capital makes some filter unreadable. -/
theorem exists_breaks {new : List Char} (hI : 'İ' ∈ new) :
    ∃ pre post old, Site pre.toList ∧ PlainContent old ∧ Breaks pre post old new := by
  refine ⟨String.ofList ['(', 'a', ' ', 'e', 'q', ' '],
    String.ofList (delay ((Literal.escape new).count 'İ')), ['x'],
    ⟨outside_of_plain (by simp), by simp⟩, ⟨.plain (by decide) (by decide) .nil, by decide⟩,
    ⟨.and (.compare "a" "eq" "\"x\"") (.present "b"), ?_⟩, fun m hm => ?_⟩
  · rw [withLiteral_ofList]
    exact parse_delay _
  · obtain ⟨-, hreads, -⟩ := parse_eq_ok_iff.1 hm
    rw [withLiteral_ofList, String.toList_ofList, ← probe_eq] at hreads
    have hIescape := (Literal.mem_escape_iff (by decide)).2 hI
    exact not_reads_shifted hIescape (Literal.content_escape new) m hreads

theorem plainContent_escape {new : List Char} (hI : 'İ' ∉ new) :
    PlainContent (Literal.escape new) :=
  ⟨Literal.content_escape new, by rwa [Literal.mem_escape_iff (by decide)]⟩

/-- **Literals are opaque up to the dotted capital I.** A content can take the place of every
literal of every accepted filter, with no dotted capital in front of the literal nor in it, exactly
when it has no dotted capital itself: the filter is accepted again, and what is read differs in the
one value only. Nor can the other two conditions be left out: a dotted capital in front of the
literal, or in its old content, makes some filter unreadable with a new content that has none. -/
theorem literals_opaque (new : List Char) :
    ((∀ (pre post : String) (old : List Char) (n : Filter), Site pre.toList → PlainContent old →
        parse (withLiteral pre old post) = .ok n →
        ∃ C : Hole, C.ReadAt pre post ∧ n = C.fill old ∧
          parse (withLiteral pre (Literal.escape new) post) = .ok (C.fill (Literal.escape new))) ↔
      'İ' ∉ new) ∧
    (∃ pre post old new', Outside pre.toList ∧ PlainContent old ∧ 'İ' ∉ new' ∧
      Breaks pre post old new') ∧
    ∃ pre post old new', Site pre.toList ∧ Content old ∧ 'İ' ∉ new' ∧ Breaks pre post old new' := by
  refine ⟨⟨fun h hI => ?_, fun hI pre post old n hs hb h => ?_⟩, ?_, ?_⟩
  · obtain ⟨pre, post, old, hs, hb, ⟨n, hn⟩, hrefused⟩ := exists_breaks hI
    obtain ⟨C, -, -, hnew⟩ := h pre post old n hs hb hn
    exact hrefused _ hnew
  · obtain ⟨C, hC, hn⟩ := exists_readAt hs hb h
    exact ⟨C, hC, hn, hC _ (plainContent_escape hI)⟩
  · refine ⟨"aİİİİİ eq ", " xxx(b pr)", Literal.escape ['a', 'n', 'd'], ['x'],
      outside_of_plain (by decide), plainContent_escape (by decide), by decide,
      ⟨.and (.compare "aİİİİİ" "eq" "\"and\"") (.present "b"), eq_ok_of_toOption ?_⟩,
      ne_ok_of_toOption ?_⟩
    · decide +kernel
    · decide +kernel
  · refine ⟨"a eq ", " xxx(b pr)", Literal.escape ['İ', 'İ', 'İ', 'İ', 'İ', 'a', 'n', 'd'], ['x'],
      ⟨outside_of_plain (by decide), by decide⟩, Literal.content_escape _, by decide,
      ⟨.and (.compare "a" "eq" "\"İİİİİand\"") (.present "b"), eq_ok_of_toOption ?_⟩,
      ne_ok_of_toOption ?_⟩
    · decide +kernel
    · decide +kernel

/-- With the dotted capital in a literal the connective behind it is not found. -/
theorem dotted_capital_breaks : Breaks "a eq " " and b pr" ['x'] ['İ'] :=
  ⟨⟨.and (.compare "a" "eq" "\"x\"") (.present "b"), eq_ok_of_toOption (by decide +kernel)⟩,
    ne_ok_of_toOption (by decide +kernel)⟩

end Filter

end ScimBridge
