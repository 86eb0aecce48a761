import ScimBridge.Proofs.Backend.Transcript
import ScimBridge.Proofs.Service.Requests

/-!
# Totals and pages

The total of a list is taken from one answer of the backend and its resources from another one: it is
the number that the first answer states and, where none is stated, on the first page the number of its
resources, whatever the size of the page (`total_of_page`). So it covers the page unless the stated
number itself does not or no number is known further on, and there are pairs of answers for which it
does not (`total_undercuts_page`).

1. `Objects.total_of_pageIn`: the total of a page, given the two answers.
2. `Objects.total_of_query`: the total of what is found, whatever is asked for.
3. `gives_list`: what a list that is answered shows.
-/

namespace ScimBridge

/-! ## The total of a page -/

namespace Backend.Objects

/-- A total is a number that is not negative. -/
theorem whole?_totalOf (members : Fields Value) :
    ∃ n, (totalOf members).whole? = some n ∧ 0 ≤ n := by
  have htotal : ∀ v, isTotal v = true → ∃ n, v.whole? = some n ∧ 0 ≤ n := by
    intro v hv
    cases v with
    | int n => exact ⟨n, rfl, of_decide_eq_true hv⟩
    | bool b => exact ⟨_, rfl, by cases b <;> decide⟩
    | _ => cases hv
  unfold totalOf
  dsimp only
  cases hfirst : (members.get? "totalPagedResults").filter isTotal with
  | some v => exact htotal v (Option.filter_eq_some_iff.1 hfirst).2
  | none =>
    cases hsecond : (members.get? "resultCount").filter isTotal with
    | some v => exact htotal v (Option.filter_eq_some_iff.1 hsecond).2
    | none => exact ⟨0, rfl, Int.le_refl 0⟩

theorem filled_iff_of_whole? {v : Value} {n : Int} (h : v.whole? = some n) :
    v.filled = true ↔ n ≠ 0 := by
  cases v with
  | int m =>
    cases h
    exact bne_iff_ne
  | bool b =>
    cases h
    cases b <;> decide
  | _ => cases h

/-- The total of a page with objects is the one that was counted, unless it is zero. -/
theorem total_of_pageIn {counted : Value} {m : Int} (hcounted : counted.whole? = some m)
    {members : Fields Value} {page : Page} (h : pageIn counted members = .ok page)
    {objects : List Value} (hobjects : page.results = .array objects) :
    page.total = if m = 0 then .int objects.length else counted := by
  unfold pageIn at h
  obtain ⟨total, htotal, rfl⟩ := map_eq_ok_iff.1 h
  dsimp only at hobjects ⊢
  rw [hobjects] at htotal
  unfold totalIn at htotal
  by_cases hm : m = 0
  · rw [if_neg (by simpa [hm] using mt (filled_iff_of_whole? hcounted).1)] at htotal
    rw [if_pos hm]
    cases htotal
    rfl
  · rw [if_pos ((filled_iff_of_whole? hcounted).2 hm)] at htotal
    rw [if_neg hm]
    cases htotal
    rfl

/-- The objects of a page are in the answer to the request for it. -/
theorem get?_of_pageIn {counted : Value} {members : Fields Value} {page : Page}
    (h : pageIn counted members = .ok page) {objects : List Value}
    (hobjects : page.results = .array objects) (hne : objects ≠ []) :
    members.get? "result" = some (.array objects) := by
  obtain ⟨total, -, rfl⟩ := map_eq_ok_iff.1 h
  dsimp only at hobjects
  cases hresult : Value.filled? members "result" with
  | none =>
    rw [hresult] at hobjects
    exact absurd (Value.array.inj hobjects).symm hne
  | some v =>
    rw [hresult] at hobjects
    rw [← hobjects]
    exact (Option.filter_eq_some_iff.1 hresult).1

variable {object : String} {filter : Value} {start size : Int} {token : Option String}
  {c c' : Client} {t : Transcript}

/-- The total of what is found is the number that the first answer states, and where that is zero the
number of the objects found; those are in the second answer. -/
theorem total_of_query {page : Page} (h : Gives (query object
      { filter, start := .int start, count := .int size } token) c t page c') {objects : List Value}
    (hobjects : page.results = .array objects) :
    ∃ first second stated m, t = first ++ second ∧
      Asks (some (.object (countParams filter))) first stated ∧
      (totalOf stated).whole? = some m ∧ 0 ≤ m ∧
      page.total.whole? = some (if m = 0 then (objects.length : Int) else m) ∧
      (objects ≠ [] → ∃ given,
        Asks (some (.object (pageParams filter (max start 1 - 1) size))) second given ∧
        given.get? "result" = some (.array objects)) := by
  obtain ⟨first, second, stated, rfl, hstated, hnone, hsome⟩ := gives_query h
  obtain ⟨m, hm, hpos⟩ := whole?_totalOf stated
  refine ⟨first, second, stated, m, rfl, hstated, hm, hpos, ?_⟩
  by_cases hsize : size = 0
  · -- nothing but the total was asked for
    obtain rfl := hnone hsize
    obtain rfl : [] = objects := Value.array.inj hobjects
    refine ⟨hm.trans ?_, fun hne => absurd rfl hne⟩
    by_cases hzero : m = 0
    · rw [if_pos hzero, hzero]
      rfl
    · rw [if_neg hzero]
  · obtain ⟨given, hgiven, hpage⟩ := hsome hsize
    refine ⟨?_, fun hne => ⟨given, hgiven, get?_of_pageIn hpage hobjects hne⟩⟩
    rw [total_of_pageIn hm hpage hobjects]
    split
    · rfl
    · exact hm

end Backend.Objects

/-! ## Lists -/

namespace Service

open Backend Backend.Exchange

variable {α : Type} {c c' : Client} {t : Transcript}

/-- What is settled goes on with its result. -/
theorem gives_settle_bind {β : Type} {x : Outcome α} {f : α → Operation β} {b : β}
    (h : Gives (settle x >>= f) c t b c') : ∃ a, x = .ok a ∧ Gives (f a) c t b c' := by
  obtain ⟨a, c₁, none, rest, rfl, hsettled, hrest⟩ := gives_bind_iff.1 h
  obtain ⟨rfl, hx, rfl⟩ := (gives_of_done (startedIn_settle x c)).1 hsettled
  exact ⟨a, hx, hrest⟩

theorem gives_ask {action missing : String} {x : Action α} {a : α}
    (h : Gives (ask action missing x) c t a c') : Gives x c t a c' := by
  unfold Gives at h
  rw [startedIn_ask] at h
  obtain ⟨⟨outcome, c₁⟩, first, second, rfl, hfirst, hsecond⟩ := runs_bind_iff.1 h
  obtain ⟨rfl, hresult⟩ := runs_done_iff.1 hsecond
  obtain ⟨houtcome, rfl⟩ := Prod.mk.inj hresult
  rw [List.append_nil, Gives, ← mapError_eq_ok_iff.1 houtcome.symm]
  exact hfirst

variable {s : Setup} {kind : Kind} {query : Fields Value} {caller : Caller} {message : Value}

theorem objectsOf_eq_ok {results : Value} {objects : List Value}
    (h : objectsOf results = .ok objects) : results = .array objects := by
  cases results with
  | array items =>
    cases h
    rfl
  | _ => cases h

/-- What a list that is answered shows: the resources of the objects that were found, and their
total. -/
theorem gives_list (h : Gives (s.list kind query caller) c t message c') :
    ∃ page filter c₁ found objects resources, Paging.Page.ofQuery query = .ok page ∧
      s.translateFilter kind (filterOf query) = .ok filter ∧
      Gives (Objects.query (s.object kind)
        { filter := .string filter, start := .int page.start, count := .int page.count }
        caller.token) c t found c₁ ∧
      found.results = .array objects ∧
      objects.mapM (s.resourceOf kind caller.baseUrl) = .ok resources ∧
      message = Paging.listMessage resources found.total page.start := by
  obtain ⟨page, hpage, h⟩ := gives_settle_bind h
  obtain ⟨filter, hfilter, h⟩ := gives_settle_bind h
  obtain ⟨found, c₁, first, rest, rfl, hfound, h⟩ := gives_bind_iff.1 h
  obtain ⟨objects, hobjects, h⟩ := gives_settle_bind h
  obtain ⟨resources, hresources, h⟩ := gives_settle_bind h
  obtain ⟨rfl, hmessage, -⟩ := (gives_of_done rfl).1 h
  cases hmessage
  rw [List.append_nil]
  exact ⟨page, filter, c₁, found, objects, resources, hpage, hfilter,
    gives_ask hfound, objectsOf_eq_ok hobjects, hresources, rfl⟩

/-- **The total of a list.** Let a list be answered. Then it rests on the answer to the request for the
total, whose members state a number, and if it has a resource on that to the request for the page,
whose members hold the objects of which the resources are made. The total is the stated number and,
where that is zero or missing, on the first page the number of the resources. So it is not less than
the place of the last resource if the stated number is not, or if there is none and the page is the
first one. -/
theorem total_of_page {script : List Answer} (h : ((startedIn (s.list kind query caller) c).play
      script).result.1 = .ok message) :
    ∃ page resources total filter first second stated m n,
      Paging.Page.ofQuery query = .ok page ∧
      message = Paging.listMessage resources total page.start ∧
      s.translateFilter kind (filterOf query) = .ok filter ∧
      (startedIn (s.list kind query caller) c).transcript script = first ++ second ∧
      Asks (some (.object (Objects.countParams (.string filter)))) first stated ∧
      (Objects.totalOf stated).whole? = some m ∧ 0 ≤ m ∧ total.whole? = some n ∧
      (m ≠ 0 → n = m) ∧ (m = 0 → page.start = 1 → n = resources.length) ∧
      (page.start - 1 + resources.length ≤ m ∨ m = 0 ∧ page.start = 1 →
        page.start - 1 + resources.length ≤ n) ∧
      (resources ≠ [] → ∃ given objects,
        Asks (some (.object (Objects.pageParams (.string filter) (page.start - 1) page.count)))
          second given ∧
        given.get? "result" = some (.array objects) ∧
        objects.mapM (s.resourceOf kind caller.baseUrl) = .ok resources) := by
  obtain ⟨page, filter, c₁, found, objects, resources, hpage, hfilter, hfound, hobjects, hresources,
    rfl⟩ := gives_list (gives_of_play h)
  obtain ⟨first, second, stated, m, htranscript, hstated, hm, hpos, htotal, hgiven⟩ :=
    Objects.total_of_query hfound hobjects
  have hlength : objects.length = resources.length := (mapM_eq_ok_iff.1 hresources).length_eq
  rw [Int.max_eq_left (one_le_start hpage)] at hgiven
  rw [hlength] at htotal
  refine ⟨page, resources, found.total, filter, first, second, stated, m,
    if m = 0 then (resources.length : Int) else m, hpage, rfl, hfilter, htranscript, hstated, hm,
    hpos, htotal, fun hm => if_neg hm, fun hm _ => if_pos hm, ?_, fun hne => ?_⟩
  · split <;> omega
  · have hobjects_ne : objects ≠ [] := by
      rwa [← List.length_pos_iff_ne_nil, hlength, List.length_pos_iff_ne_nil]
    obtain ⟨given, hgiven, hresult⟩ := hgiven hobjects_ne
    exact ⟨given, objects, hgiven, hresult, hresources⟩

/-- A list of users that a caller with a token asks for. -/
def listing (query : Fields Value) : Exchange (Outcome Value × Client) :=
  startedIn (Setup.list ⟨{}, .empty⟩ .user query ⟨some "token", ""⟩) (.ofAddress usualAddress)

/-- The numbers of a list: the total, the place of its first resource, and how many it has. -/
def numbersOf (message : Value) : Option (List Int) :=
  ["totalResults", "startIndex", "itemsPerPage"].mapM fun name =>
    (message.get? name).bind Value.whole?

theorem numbersOf_listMessage (resources : List Value) (total : Value) (start : Int) :
    numbersOf (Paging.listMessage resources total start) =
      total.whole?.map fun n => [n, start, resources.length] := by
  show (total.whole?.bind fun n => some [n, start, (resources.length : Int)]) = _
  cases total.whole? <;> rfl

/-- What a list that is played against a script comes to, in numbers. -/
def playedNumbers (query : Fields Value) (script : List Answer) : Option (List Int) :=
  ((listing query).play script).result.1.toOption.bind numbersOf

/-- The first user of five on a page of its own: the total is the number that is stated. -/
theorem total_of_page_stated :
    let query : Fields Value := [("count", .int 1)]
    let script : List Answer := [.response 200 "\x7b\"totalPagedResults\":5\x7d",
      .response 200 "\x7b\"result\":[\x7b\"_id\":\"u1\"\x7d]\x7d"]
    playedNumbers query script = some [5, 1, 1] ∧
      ∃ first second stated, (listing query).transcript script = first ++ second ∧
        Asks (some (.object (Objects.countParams (.string "true")))) first stated ∧
        (Objects.totalOf stated).whole? = some 5 := by
  intro query script
  have hnumbers : playedNumbers query script = some [5, 1, 1] := by decide +kernel
  refine ⟨hnumbers, ?_⟩
  obtain ⟨message, hmessage, hread⟩ := Option.bind_eq_some_iff.1 hnumbers
  obtain ⟨page, resources, total, filter, first, second, stated, m, n, -, rfl, hfilter, htranscript,
    hstated, hm, -, hn, hsame, hfirst, -, -⟩ := total_of_page (eq_ok_of_toOption hmessage)
  rw [numbersOf_listMessage] at hread
  obtain ⟨total', htotal, hlist⟩ := Option.map_eq_some_iff.1 hread
  obtain ⟨rfl, hstart, hlength⟩ : total' = 5 ∧ page.start = 1 ∧ (resources.length : Int) = 1 := by
    simpa using hlist
  obtain rfl : "true" = filter := Except.ok.inj hfilter
  obtain rfl : 5 = n := Option.some.inj (htotal.symm.trans hn)
  obtain rfl : m = 5 := by
    by_cases hm : m = 0
    · have hpage := hfirst hm hstart
      omega
    · exact (hsame hm).symm
  exact ⟨first, second, stated, htranscript, hstated, hm⟩

/-- A page of two users behind a total of one: a user has come in between the two answers. And the
third user on a page of its own, where no total is known: the total is one, and so less than the place
of the user. -/
theorem total_undercuts_page :
    playedNumbers [("startIndex", .int 1), ("count", .int 2)]
      [.response 200 "\x7b\"totalPagedResults\":1\x7d",
       .response 200 "\x7b\"result\":[\x7b\"_id\":\"u1\"\x7d,\x7b\"_id\":\"u2\"\x7d]\x7d"] =
      some [1, 1, 2] ∧
    playedNumbers [("startIndex", .int 3), ("count", .int 1)]
      [.response 200 "\x7b\"totalPagedResults\":-1\x7d",
       .response 200 "\x7b\"result\":[\x7b\"_id\":\"u3\"\x7d]\x7d"] = some [1, 3, 1] := by
  decide +kernel

end Service

end ScimBridge
