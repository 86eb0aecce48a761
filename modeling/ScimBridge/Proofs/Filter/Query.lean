import ScimBridge.Filter.Rendering
import ScimBridge.Proofs.Filter.Grammar
import ScimBridge.Proofs.Filter.Literal

/-!
# The backend's query language

`Query.Reads cs f` is the grammar of the backend: tests, two queries in parentheses around `and` or
`or`, and a `!` in front of a query in parentheses or of one that brings its own. A query has one
reading at most, whatever its literals hold, and what a filter is rendered to reads as that filter
with the names and literals of the backend (`render_unique_reading`).

1. `Query.Reads.cancel`: where a query ends is settled by its beginning. By induction on the length
   of the query: its first character decides between a test, a chain and a negation.
2. `render_eq`: the text that is written piece by piece is that of the tree.
3. `reads_queryText`: the text of a well-formed filter is a query.
-/

namespace ScimBridge

/-! ## The grammar -/

namespace Query

/-- A name: one or more characters of paths. -/
def IsName (cs : List Char) : Prop := cs ≠ [] ∧ ∀ c ∈ cs, Comparison.isPathChar c = true

/-- A presence test or a comparison. -/
inductive Test : List Char → Filter → Prop
  | present {name : List Char} : IsName name →
      Test (name ++ ' ' :: ['p', 'r']) (.present (String.ofList name))
  | compare {name value : List Char} {op : String} : IsName name →
      op ∈ Filter.comparisonOperators → Literal.IsLiteral value →
      Test (name ++ ' ' :: (op.toList ++ ' ' :: value))
        (.compare (String.ofList name) op (String.ofList value))

/-- What a query reads as. -/
inductive Reads : List Char → Filter → Prop
  | test {cs : List Char} {f : Filter} : Test cs f → Reads cs f
  | chain {l r : List Char} {f g : Filter} (w : Connective) : Reads l f → Reads r g →
      Reads ('(' :: (l ++ ' ' :: (w.word ++ ' ' :: (r ++ [')'])))) (w.join f g)
  | group {cs : List Char} {f : Filter} : Reads cs f → Reads ('!' :: '(' :: (cs ++ [')'])) (.not f)
  | chained {cs : List Char} {f : Filter} : Reads cs f → f.isChain = true →
      Reads ('!' :: cs) (.not f)

/-! ## One reading at most -/

/-- What stands behind a query inside another one: nothing, a space or a closing parenthesis. -/
def Ends (rest : List Char) : Prop := ∀ c, rest.head? = some c → c = ' ' ∨ c = ')'

theorem ends_nil : Ends [] := by
  intro c h
  cases h

theorem ends_space (rest : List Char) : Ends (' ' :: rest) := by
  intro c h
  cases h
  exact .inl rfl

theorem ends_close (rest : List Char) : Ends (')' :: rest) := by
  intro c h
  cases h
  exact .inr rfl

theorem isPathChar_head_space (rest : List Char) (c : Char) (h : (' ' :: rest).head? = some c) :
    Comparison.isPathChar c = false := by
  cases h
  decide

theorem isName_of_isPath {cs : List Char} (h : Comparison.IsPath cs) : IsName cs := by
  obtain ⟨c, rest, rfl, hc, hrest⟩ := h
  refine ⟨List.cons_ne_nil c rest, fun d hd => ?_⟩
  rcases List.mem_cons.1 hd with rfl | hd
  · exact Comparison.isPathChar_of_isPathStart hc
  · exact hrest d hd

/-- The characters of keywords and numbers, and more: all but those that end a literal or begin a
string. -/
def isTokenChar (c : Char) : Bool := c != ' ' && c != ')' && c != '"'

theorem isTokenChar_of_isDecimal {c : Char} (h : isDecimal c = true) : isTokenChar c = true := by
  unfold isTokenChar
  simp only [Bool.and_eq_true, bne_iff_ne]
  refine ⟨⟨?_, ?_⟩, ?_⟩ <;> rintro rfl <;> revert h <;> decide +kernel

theorem isTokenChar_of_isNumber {n : List Char} (h : Literal.IsNumber n) :
    n ≠ [] ∧ ∀ c ∈ n, isTokenChar c = true := by
  obtain ⟨d, rest, hne, -⟩ := Literal.exists_cons_of_isNumber h
  refine ⟨hne ▸ List.cons_ne_nil d rest, fun c hc => ?_⟩
  rcases Literal.mem_isNumber h hc with hd | hc
  · exact isTokenChar_of_isDecimal hd
  · exact List.all_eq_true.1 (show List.all _ isTokenChar = true by decide) c hc

/-- A literal is a run of plain characters or a string. -/
theorem token_or_string {cs : List Char} (h : Literal.IsLiteral cs) :
    (cs ≠ [] ∧ ∀ c ∈ cs, isTokenChar c = true) ∨
      ∃ b, Literal.Content b ∧ cs = Literal.enclosed b := by
  rcases h with ⟨k, hk, rfl⟩ | hn | hs
  · refine .inl ?_
    simp only [Literal.keywords, List.mem_cons, List.not_mem_nil, or_false] at hk
    rcases hk with rfl | rfl | rfl <;> exact ⟨by decide, List.all_eq_true.1 (by decide)⟩
  · exact .inl (isTokenChar_of_isNumber hn)
  · exact .inr hs

theorem enclosed_ne_token {b t u v : List Char} (ht : t ≠ [] ∧ ∀ c ∈ t, isTokenChar c = true) :
    Literal.enclosed b ++ u ≠ t ++ v := by
  obtain ⟨hne, ht⟩ := ht
  obtain ⟨c, t, rfl⟩ := List.exists_cons_of_ne_nil hne
  intro h
  cases (List.cons.inj h).1
  cases ht '"' List.mem_cons_self

/-- Where a literal ends is settled by its beginning. -/
theorem literal_cancel {a b u v : List Char} (ha : Literal.IsLiteral a) (hb : Literal.IsLiteral b)
    (hu : Ends u) (hv : Ends v) (h : a ++ u = b ++ v) : a = b ∧ u = v := by
  have hstop (w : List Char) (hw : Ends w) (c : Char) (hc : w.head? = some c) :
      isTokenChar c = false := by
    rcases hw c hc with rfl | rfl <;> decide
  rcases token_or_string ha with hta | ⟨a, hca, rfl⟩ <;>
    rcases token_or_string hb with htb | ⟨b, hcb, rfl⟩
  · exact run_append_cancel hta.2 (hstop u hu) htb.2 (hstop v hv) h
  · exact absurd h.symm (enclosed_ne_token hta)
  · exact absurd h (enclosed_ne_token htb)
  · have htail : a ++ '"' :: u = b ++ '"' :: v := by
      simpa [Literal.enclosed] using h
    have huv : u = v := by
      have := congrArg Literal.afterString? htail
      rw [Literal.afterString?_content hca, Literal.afterString?_content hcb] at this
      exact Option.some.inj this
    subst huv
    exact ⟨List.append_cancel_right h, rfl⟩

/-- The operators are words of Latin letters, and none of them is the one of presence tests. -/
theorem operator_spec {op : String} (h : op ∈ Filter.comparisonOperators) :
    (∀ c ∈ op.toList, isLatinLetter c = true) ∧ op.toList ≠ ['p', 'r'] := by
  have hall : Filter.comparisonOperators.all
      (fun op => op.toList.all isLatinLetter && op.toList != ['p', 'r']) = true := by decide
  have hop := List.all_eq_true.1 hall op h
  simpa using hop

theorem isLatinLetter_of_ends {u : List Char} (hu : Ends u) (c : Char) (h : u.head? = some c) :
    isLatinLetter c = false := by
  rcases hu c h with rfl | rfl <;> decide

theorem presence_ne_operator {op : String} (hop : op ∈ Filter.comparisonOperators)
    {u v : List Char} (hu : Ends u) : ['p', 'r'] ++ u ≠ op.toList ++ ' ' :: v := by
  intro h
  have hpr : ∀ c ∈ ['p', 'r'], isLatinLetter c = true := List.all_eq_true.1 (by decide)
  obtain ⟨hletters, hne⟩ := operator_spec hop
  exact hne (run_append_cancel hpr (isLatinLetter_of_ends hu) hletters
    (isLatinLetter_of_ends (ends_space v)) h).1.symm

theorem Test.cancel {s t u v : List Char} {f g : Filter} (hs : Test s f) (ht : Test t g)
    (hu : Ends u) (hv : Ends v) (h : s ++ u = t ++ v) : s = t ∧ f = g := by
  cases hs with
  | present hn =>
    cases ht with
    | present hm =>
      simp only [List.append_assoc, List.cons_append] at h
      obtain ⟨rfl, -⟩ := run_append_cancel hn.2 (isPathChar_head_space _) hm.2
        (isPathChar_head_space _) h
      exact ⟨rfl, rfl⟩
    | compare hm hop =>
      simp only [List.append_assoc, List.cons_append] at h
      obtain ⟨-, hrest⟩ := run_append_cancel hn.2 (isPathChar_head_space _) hm.2
        (isPathChar_head_space _) h
      exact absurd (List.cons.inj hrest).2 (presence_ne_operator hop hu)
  | compare hn hop hl =>
    cases ht with
    | present hm =>
      simp only [List.append_assoc, List.cons_append] at h
      obtain ⟨-, hrest⟩ := run_append_cancel hn.2 (isPathChar_head_space _) hm.2
        (isPathChar_head_space _) h
      exact absurd (List.cons.inj hrest).2.symm (presence_ne_operator hop hv)
    | compare hm hop' hl' =>
      simp only [List.append_assoc, List.cons_append] at h
      obtain ⟨rfl, hrest⟩ := run_append_cancel hn.2 (isPathChar_head_space _) hm.2
        (isPathChar_head_space _) h
      obtain ⟨hops, hrest⟩ := run_append_cancel (operator_spec hop).1
        (isLatinLetter_of_ends (ends_space _)) (operator_spec hop').1
        (isLatinLetter_of_ends (ends_space _)) (List.cons.inj hrest).2
      obtain ⟨rfl, -⟩ := literal_cancel hl hl' hu hv (List.cons.inj hrest).2
      cases String.toList_injective hops
      exact ⟨rfl, rfl⟩

/-- A test begins with a character of a path. -/
theorem Test.head {s u : List Char} {f : Filter} (h : Test s f) :
    ∃ c rest, s ++ u = c :: rest ∧ Comparison.isPathChar c = true := by
  cases h with
  | present hn | compare hn =>
    obtain ⟨c, name, rfl⟩ := List.exists_cons_of_ne_nil hn.1
    exact ⟨c, _, rfl, hn.2 c List.mem_cons_self⟩

theorem Test.append_ne {s u : List Char} {f : Filter} (h : Test s f) {c : Char}
    (hc : Comparison.isPathChar c = false) (rest : List Char) : s ++ u ≠ c :: rest := by
  obtain ⟨d, tail, he, hd⟩ := h.head (u := u)
  rw [he]
  rintro h
  cases (List.cons.inj h).1
  rw [hd] at hc
  cases hc

theorem word_cancel {w w' : Connective} {u v : List Char}
    (h : w.word ++ ' ' :: u = w'.word ++ ' ' :: v) : w = w' ∧ u = v := by
  cases w <;> cases w' <;> cases h <;> exact ⟨rfl, rfl⟩

/-- Where a query ends is settled by its beginning, and so is what it reads as. -/
theorem Reads.cancel {s t u v : List Char} {f g : Filter} (hs : Reads s f) (ht : Reads t g)
    (hu : Ends u) (hv : Ends v) (h : s ++ u = t ++ v) : s = t ∧ f = g := by
  have hopen : Comparison.isPathChar '(' = false := by decide
  have hbang : Comparison.isPathChar '!' = false := by decide
  induction hn : s.length using Nat.strong_induction_on generalizing s t u v f g with
  | _ n ih =>
    cases hs with
    | test hs =>
      cases ht with
      | test ht => exact hs.cancel ht hu hv h
      | chain => exact absurd h (hs.append_ne hopen _)
      | group | chained => exact absurd h (hs.append_ne hbang _)
    | @chain l r f₁ f₂ w hl hr =>
      cases ht with
      | test ht => exact absurd h.symm (ht.append_ne hopen _)
      | @chain l' r' g₁ g₂ w' hl' hr' =>
        simp only [List.cons_append, List.append_assoc, List.cons.injEq, true_and] at h
        simp only [List.length_cons, List.length_append] at hn
        -- the left sides end at the same space, then the words agree, then the right sides
        obtain ⟨rfl, rfl⟩ := ih l.length (by omega) hl hl' (ends_space _) (ends_space _) h rfl
        have hwords := (List.cons.inj (List.append_cancel_left h)).2
        obtain ⟨rfl, hrest⟩ := word_cancel hwords
        obtain ⟨rfl, rfl⟩ := ih r.length (by omega) hr hr' (ends_close _) (ends_close _) hrest rfl
        exact ⟨rfl, rfl⟩
      | group | chained => cases h
    | @group s f hs =>
      simp only [List.length_cons, List.length_append] at hn
      cases ht with
      | test ht => exact absurd h.symm (ht.append_ne hbang _)
      | chain => cases h
      | @group t g ht =>
        simp only [List.cons_append, List.append_assoc, List.cons.injEq, true_and] at h
        obtain ⟨rfl, rfl⟩ := ih s.length (by omega) hs ht (ends_close _) (ends_close _) h rfl
        exact ⟨rfl, rfl⟩
      | @chained t g ht hg =>
        cases ht with
        | test ht => exact absurd (List.cons.inj h).2.symm (ht.append_ne hopen _)
        | @chain l' r' g₁ g₂ w' hl' hr' =>
          -- `l'` would end where the group ends, at a parenthesis and at a space
          simp only [List.cons_append, List.append_assoc, List.cons.injEq, true_and] at h
          obtain ⟨rfl, -⟩ := ih s.length (by omega) hs hl' (ends_close _) (ends_space _) h rfl
          cases List.append_cancel_left h
        | group | chained => cases hg
    | @chained s f hs hf =>
      simp only [List.length_cons] at hn
      cases ht with
      | test ht => exact absurd h.symm (ht.append_ne hbang _)
      | chain => cases h
      | @group t g ht =>
        cases hs with
        | test hs => exact absurd (List.cons.inj h).2 (hs.append_ne hopen _)
        | @chain l r f₁ f₂ w hl hr =>
          simp only [List.cons_append, List.append_assoc, List.cons.injEq, true_and] at h
          simp only [List.length_cons, List.length_append] at hn
          obtain ⟨rfl, -⟩ := ih l.length (by omega) hl ht (ends_space _) (ends_close _) h rfl
          cases List.append_cancel_left h
        | group | chained => cases hf
      | @chained t g ht hg =>
        obtain ⟨rfl, rfl⟩ := ih s.length (by omega) hs ht hu hv (List.cons.inj h).2 rfl
        exact ⟨rfl, rfl⟩

/-- A query has one reading at most. -/
theorem Reads.unique {s : List Char} {f g : Filter} (hf : Reads s f) (hg : Reads s g) : f = g :=
  (hf.cancel hg ends_nil ends_nil rfl).2

end Query

namespace Filter

variable (table : PathTable)

/-! ## The text of a query -/

/-- The text of a filter in the backend's query language. -/
def queryText : Filter → String
  | .present path => presenceText table path
  | .compare path op value => comparisonText table path op value
  | .and l r => "(" ++ queryText l ++ " and " ++ queryText r ++ ")"
  | .or l r => "(" ++ queryText l ++ " or " ++ queryText r ++ ")"
  | .not inner =>
    if inner.isChain then "!" ++ queryText inner else "!(" ++ queryText inner ++ ")"

/-- The text of a piece. -/
def Piece.queryText : Piece → String
  | .text s => s
  | .node f => f.queryText table

/-- The text of all pieces. -/
def queryTexts (pieces : List Piece) : String :=
  pieces.foldr (fun p rest => p.queryText table ++ rest) ""

theorem write_eq (written : String) (pieces : List Piece) :
    write table written pieces = written ++ queryTexts table pieces := by
  fun_induction write table written pieces with
  | case1 written => exact String.append_empty.symm
  | case2 written s rest ih | case3 written p rest ih | case4 written p op v rest ih =>
    rw [ih, String.append_assoc]
    rfl
  | case5 written l r rest ih | case6 written l r rest ih =>
    rw [ih]
    simp only [queryTexts, List.foldr_cons, Piece.queryText, queryText, String.append_assoc]
  | case7 written inner rest hchain ih =>
    rw [ih]
    simp only [queryTexts, List.foldr_cons, Piece.queryText, queryText, if_pos hchain,
      String.append_assoc]
  | case8 written inner rest hchain ih =>
    rw [ih]
    simp only [queryTexts, List.foldr_cons, Piece.queryText, queryText, if_neg hchain,
      String.append_assoc]

/-- What is written piece by piece is the text of the tree. -/
theorem render_eq (f : Filter) : render table f = f.queryText table := by
  unfold render
  rw [write_eq, String.empty_append]
  exact String.append_empty

/-- A filter with the names and literals of the backend. -/
def forBackend : Filter → Filter
  | .present path => .present (table.name path)
  | .compare path op value => .compare (table.name path) op (Literal.ofValue path value)
  | .not inner => .not inner.forBackend
  | .and l r => .and l.forBackend r.forBackend
  | .or l r => .or l.forBackend r.forBackend

theorem isChain_forBackend (f : Filter) : (f.forBackend table).isChain = f.isChain := by
  cases f <;> rfl

/-- The path and the value of each comparison. -/
def values : Filter → List (String × String)
  | .present _ => []
  | .compare path _ value => [(path, value)]
  | .not inner => inner.values
  | .and l r => l.values ++ r.values
  | .or l r => l.values ++ r.values

theorem isName_name {table : PathTable}
    (htable : ∀ path name, table.get? path = some name → Query.IsName name.toList) {path : String}
    (hpath : Comparison.IsPath path.toList) : Query.IsName (table.name path).toList := by
  unfold PathTable.name
  cases h : table.get? path with
  | none => exact Query.isName_of_isPath hpath
  | some name => exact htable path name h

/-- The text of a well-formed filter is a query and reads as that filter. -/
theorem reads_queryText {table : PathTable}
    (htable : ∀ path name, table.get? path = some name → Query.IsName name.toList) {f : Filter}
    (hf : f.WellFormed) : Query.Reads (f.queryText table).toList (f.forBackend table) := by
  induction f with
  | present path =>
    have := Query.Test.present (isName_name htable hf)
    rw [String.ofList_toList] at this
    refine .test ?_
    simpa [queryText, presenceText, forBackend] using this
  | compare path op value =>
    obtain ⟨hpath, hop, -, hvalue, -⟩ := hf
    have hliteral := Literal.isLiteral_ofValue path hvalue
    have := Query.Test.compare (isName_name htable hpath) hop hliteral
    rw [String.ofList_toList, String.ofList_toList] at this
    refine .test ?_
    simpa [queryText, comparisonText, forBackend] using this
  | and l r ihl ihr =>
    have := Query.Reads.chain .and (ihl hf.1) (ihr hf.2)
    simpa [queryText, forBackend, Connective.word, Connective.join] using this
  | or l r ihl ihr =>
    have := Query.Reads.chain .or (ihl hf.1) (ihr hf.2)
    simpa [queryText, forBackend, Connective.word, Connective.join] using this
  | not inner ih =>
    by_cases hchain : inner.isChain = true
    · have := Query.Reads.chained (ih hf) (by rwa [isChain_forBackend])
      simpa [queryText, forBackend, hchain] using this
    · have := Query.Reads.group (ih hf)
      simpa [queryText, forBackend, hchain] using this

/-- The values of a well-formed filter become literals. -/
theorem WellFormed.isLiteral {f : Filter} (hf : f.WellFormed) :
    ∀ v ∈ f.values, Literal.IsLiteral (Literal.ofValue v.1 v.2).toList := by
  induction f with
  | present path =>
    intro v hv
    cases hv
  | compare path op value =>
    intro v hv
    cases List.mem_singleton.1 hv
    exact Literal.isLiteral_ofValue path hf.2.2.2.1
  | not inner ih => exact ih hf
  | and l r ihl ihr | or l r ihl ihr =>
    intro v hv
    rcases List.mem_append.1 hv with hv | hv
    · exact ihl hf.1 v hv
    · exact ihr hf.2 v hv

/-- Every query has a space in it. -/
theorem space_mem_queryText (f : Filter) : ' ' ∈ (f.queryText table).toList := by
  induction f with
  | present path => simp [queryText, presenceText]
  | compare path op value => simp [queryText, comparisonText]
  | and l r | or l r => simp [queryText]
  | not inner ih =>
    unfold queryText
    split <;> simp [ih]

/-- A text that is read becomes the text of what is read. -/
theorem translate_of_parse {text : String} {f : Filter} (h : parse text = .ok f) :
    translate table (some text) = .ok (f.queryText table) := by
  have hblank := (parse_eq_ok_iff.1 h).2.1.not_allBlank
  unfold translate
  simp only [if_neg hblank, h]
  exact congrArg Except.ok (render_eq table f)

/-- Only the filter that is absent or blank is met by all. -/
theorem translate_eq_matchAll_iff (filter : Option String) :
    translate table filter = .ok matchAll ↔
      filter = none ∨ ∃ s, filter = some s ∧ allBlank s.toList = true := by
  cases filter with
  | none => exact ⟨fun _ => .inl rfl, fun _ => rfl⟩
  | some s =>
    by_cases hb : allBlank s.toList = true
    · refine ⟨fun _ => .inr ⟨s, rfl, hb⟩, fun _ => ?_⟩
      unfold translate
      exact if_pos hb
    · constructor
      · intro h
        unfold translate at h
        simp only [if_neg hb] at h
        obtain ⟨f, -, hf⟩ := map_eq_ok_iff.1 h
        have hspace := space_mem_queryText table f
        rw [← render_eq, hf] at hspace
        exact absurd hspace (by decide)
      · rintro (h | ⟨t, h, ht⟩)
        · cases h
        · cases h
          exact absurd ht hb

/-- **What is rendered has one reading.** If the names of the table are names, the text that an
accepted filter is rendered to reads as that filter with the names and literals of the backend and
as no other; every value in it is one literal; and the text that is met by all comes from an absent
or a blank filter alone. -/
theorem render_unique_reading {table : PathTable}
    (htable : ∀ path name, table.get? path = some name → Query.IsName name.toList) {text : String}
    {n : Filter} (h : parse text = .ok n) :
    (∀ f, Query.Reads (render table n).toList f ↔ f = n.forBackend table) ∧
    (∀ v ∈ n.values, Literal.IsLiteral (Literal.ofValue v.1 v.2).toList) ∧
    translate table (some text) = .ok (render table n) ∧
    ∀ filter, translate table filter = .ok matchAll ↔
      filter = none ∨ ∃ s, filter = some s ∧ allBlank s.toList = true := by
  obtain ⟨-, hreads, -⟩ := parse_eq_ok_iff.1 h
  have hquery := reads_queryText htable hreads.wellFormed
  rw [← render_eq] at hquery
  refine ⟨fun f => ⟨fun hf => hf.unique hquery, ?_⟩, hreads.wellFormed.isLiteral, ?_,
    translate_eq_matchAll_iff table⟩
  · rintro rfl
    exact hquery
  · rw [render_eq]
    exact translate_of_parse table h

/-- A string that holds a parenthesis, a connective and an escaped quote stays in its place. -/
theorem render_unique_reading_of_string :
    Query.Reads "(!(accountName eq \"a\\\") or (b\") and active eq \"active\")".toList
      (.and (.not (.compare "accountName" "eq" "\"a\\\") or (b\""))
        (.compare "active" "eq" "\"active\"")) ∧
    translate [("userName", "accountName")]
      (some "not (userName eq \"a\\\") or (b\") and active eq True") =
      .ok "(!(accountName eq \"a\\\") or (b\") and active eq \"active\")" := by
  have htable : ∀ path name,
      Fields.get? [("userName", "accountName")] path = some name → Query.IsName name.toList := by
    intro path name h
    rw [Fields.get?_cons] at h
    obtain ⟨-, h⟩ := Option.ite_none_right_eq_some.1 h
    cases h
    exact ⟨by decide, List.all_eq_true.1 (by decide)⟩
  have h : parse "not (userName eq \"a\\\") or (b\") and active eq True" =
      .ok (.and (.not (.compare "userName" "eq" "\"a\\\") or (b\""))
        (.compare "active" "eq" "True")) :=
    eq_ok_of_toOption (by decide +kernel)
  have hrender : render [("userName", "accountName")]
      (.and (.not (.compare "userName" "eq" "\"a\\\") or (b\""))
        (.compare "active" "eq" "True")) =
        "(!(accountName eq \"a\\\") or (b\") and active eq \"active\")" := by
    decide +kernel
  obtain ⟨hreads, -, htranslate, -⟩ := render_unique_reading htable h
  rw [hrender] at hreads htranslate
  exact ⟨(hreads _).2 rfl, htranslate⟩

end Filter

end ScimBridge
