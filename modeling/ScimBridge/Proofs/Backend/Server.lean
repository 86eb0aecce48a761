import ScimBridge.Proofs.Backend.Requests

/-!
# Exchanges with a server

Instead of a script there may be a server, which answers each request by what it says. A server
`Holds` a list of objects if it states how many meet a filter and answers a request for a page with
the objects in that place. A query of the managed objects then gives the total and the page
(`against_query`).
-/

namespace ScimBridge

namespace Backend

/-- What a server answers to each request. -/
abbrev Server := Request → Answer

namespace Exchange

variable {α β : Type} (server : Server)

/-- The result of an exchange with a server. -/
def against : Exchange α → α
  | .done a => a
  | .call request next => (next (server request)).against

theorem against_bind (x : Exchange α) (f : α → Exchange β) :
    (x >>= f).against server = (f (x.against server)).against server := by
  induction x with
  | done a => rfl
  | call request next ih => exact ih (server request)

@[simp] theorem against_once (request : Request) (f : Answer → α) :
    (once request f).against server = f (server request) := rfl

end Exchange

/-! ## Operations -/

section

variable {ε σ α β : Type} {server : Server} {x : ExceptT ε (StateT σ Exchange) α} {s s' : σ}

/-- An operation that has a result goes on with it. -/
theorem against_bind_ok {a : α} (h : (startedIn x s).against server = (.ok a, s'))
    (f : α → ExceptT ε (StateT σ Exchange) β) :
    (startedIn (x >>= f) s).against server = (startedIn (f a) s').against server := by
  rw [startedIn_bind, Exchange.against_bind, h]

theorem against_map_ok {a : α} (h : (startedIn x s).against server = (.ok a, s')) (f : α → β) :
    (startedIn (f <$> x) s).against server = (.ok (f a), s') := by
  rw [map_eq_pure_bind, against_bind_ok h]
  rfl

/-- An operation that has a result needs no rescue. -/
theorem against_tryCatch_ok {a : α} (h : (startedIn x s).against server = (.ok a, s'))
    (f : ε → ExceptT ε (StateT σ Exchange) α) :
    (startedIn (tryCatch x f) s).against server = (.ok a, s') := by
  rw [startedIn_tryCatch, Exchange.against_bind, h]
  rfl

end

/-- A client that has a token to send for a caller: the caller's own, or one of the service that is
stored and has not expired. -/
def Authorized (token : Option String) (c : Client) : Prop :=
  ∃ bearer, startedIn (bearerFor token) c = .done (.ok bearer, c)

theorem authorized_of_token {t : String} (ht : t ≠ "") (c : Client) : Authorized (some t) c :=
  ⟨_, startedIn_bearerFor ht c⟩

/-- An answer to a request with a document that is an object. -/
def Tells (answer : Answer) (members : Fields Value) : Prop :=
  ∃ status text, answer = .response status text ∧ status < 400 ∧
    Value.ofDocument text = .ok (.object members)

/-! ## A list of objects -/

/-- The members of an answer that state a number of objects: as the total over all pages or, where no
total is known, as the number of results. -/
def StatesTotal (members : Fields Value) (n : Nat) : Prop :=
  members.get? "totalPagedResults" = some (.int n) ∨
    (∀ v ∈ members.get? "totalPagedResults", ∃ k : Int, v = .int k ∧ k < 0) ∧
      members.get? "resultCount" = some (.int n)

theorem totalOf_of_states {members : Fields Value} {n : Nat} (h : StatesTotal members n) :
    Objects.totalOf members = .int n := by
  unfold Objects.totalOf
  rcases h with htotal | ⟨hnone, hcount⟩
  · simp [htotal, Option.filter, Objects.isTotal]
  · cases htotal : members.get? "totalPagedResults" with
    | none => simp [htotal, hcount, Option.filter, Objects.isTotal]
    | some v =>
      obtain ⟨k, rfl, hk⟩ := hnone v htotal
      simp [htotal, hcount, Option.filter, Objects.isTotal, Int.not_le.2 hk]

/-- A request for the objects of a collection that meet a filter. -/
structure AsksFor (r : Request) (url : String) (filter : Value) : Prop where
  method : r.method = "GET"
  url : r.url = url
  filter : paramOf r.params "_queryFilter" = some filter

/-- A server that holds a list of objects which meet a filter: it states their number where only that
is asked for, and answers a request for a page with the objects in that place. -/
structure Holds (server : Server) (url : String) (filter : Value) (objects : List Value) : Prop where
  total (r : Request) (hr : AsksFor r url filter)
    (hcount : paramOf r.params "_countOnly" = some (.string "true")) :
    ∃ members, Tells (server r) members ∧ StatesTotal members objects.length
  page (r : Request) (hr : AsksFor r url filter) (hcount : paramOf r.params "_countOnly" = none)
    (offset size : Nat) (hoffset : paramOf r.params "_pagedResultsOffset" = some (.int offset))
    (hsize : paramOf r.params "_pageSize" = some (.int size)) :
    ∃ members, Tells (server r) members ∧
      members.get? "result" = some (.array ((objects.drop offset).take size))

section

variable {server : Server} {token : Option String} {c : Client}

/-- A request for a document gives what the server tells. -/
theorem against_requestDocument (hc : Authorized token c) (method path : String) (content : Content)
    {P : Fields Value → Prop}
    (h : ∀ r : Request, r.method = method → r.url = c.baseUrl ++ path → r.params = content.params →
      ∃ members, Tells (server r) members ∧ P members) :
    ∃ members, P members ∧
      (startedIn (requestDocument method path content token) c).against server =
        (.ok (.object members), c) := by
  obtain ⟨bearer, hbearer⟩ := hc
  obtain ⟨members, ⟨status, text, hserver, hstatus, htext⟩, hP⟩ :=
    h (bearing c method path content bearer) rfl rfl rfl
  have hrequest : (startedIn (request method path content token) c).against server =
      (.ok (status, text), c) := by
    rw [startedIn_request, hbearer]
    show (received _ (server _), c) = _
    rw [hserver, received, if_neg (Int.not_le.2 hstatus)]
  refine ⟨members, hP, ?_⟩
  rw [requestDocument, against_bind_ok hrequest]
  dsimp only
  rw [startedIn_readDocument, documentIn, htext]
  rfl

variable {object : String} {filter : String} {objects : List Value}

section

variable (hc : Authorized token c) (hfilter : filter ≠ "")
  (hserver : Holds server (c.baseUrl ++ Objects.collectionPath object) (.string filter) objects)

include hc hfilter hserver

omit hc hserver in
theorem filterParam_of_ne_empty :
    Objects.filterParam (.string filter) = ("_queryFilter", .string filter) := by
  simp [Objects.filterParam, Value.filled, hfilter]

theorem against_count :
    (startedIn (Objects.count object (.string filter) token) c).against server =
      (.ok (.int objects.length), c) := by
  unfold Objects.count
  rw [filterParam_of_ne_empty hfilter]
  obtain ⟨members, hstates, hanswer⟩ := against_requestDocument hc "GET"
    (Objects.collectionPath object) { params := some (.object [("_queryFilter", .string filter),
      ("_countOnly", .string "true"), Objects.exactParam]) }
    fun r hmethod hurl hparams => hserver.total r ⟨hmethod, hurl, by rw [hparams]; rfl⟩
      (by rw [hparams]; rfl)
  rw [against_bind_ok hanswer, ← totalOf_of_states hstates]
  rfl

/-- A query gives the total and, of the objects, those in the place of the page. -/
theorem against_query {start size : Nat} (hstart : 0 < start) (hsize : 0 < size) :
    (startedIn (Objects.query object
        { filter := .string filter, start := .int start, count := .int size } token) c).against
        server =
      (.ok ⟨.int objects.length, .array ((objects.drop (start - 1)).take size)⟩, c) := by
  have hsome : (Value.int size == .int 0) = false := by
    rw [Objects.int_beq_zero, decide_eq_false_iff_not]
    omega
  have hoffset : max (start : Int) 1 - 1 = (start - 1 : Nat) := by omega
  obtain ⟨members, hresult, hanswer⟩ := against_requestDocument hc "GET"
    (Objects.collectionPath object) { params := some (.object ([("_queryFilter", .string filter),
      ("_pagedResultsOffset", .int (start - 1 : Nat)), ("_pageSize", .int size),
      Objects.exactParam] ++ Objects.fieldsParam none)) }
    fun r hmethod hurl hparams => hserver.page r ⟨hmethod, hurl, by rw [hparams]; rfl⟩
      (by rw [hparams]; rfl) (start - 1) size (by rw [hparams]; rfl) (by rw [hparams]; rfl)
  have hresults : (Value.filled? members "result").getD (.array []) =
      .array ((objects.drop (start - 1)).take size) := by
    rw [Value.filled?, hresult]
    cases (objects.drop (start - 1)).take size <;> rfl
  -- a total of zero is replaced by the number of results, of which there are none then
  have htotal : Objects.totalIn (.int objects.length)
      (.array ((objects.drop (start - 1)).take size)) = .ok (.int objects.length) := by
    unfold Objects.totalIn
    cases objects with
    | nil => simp [Value.filled, Objects.sizeOf?]
    | cons first rest =>
      have hfilled : (Value.int (first :: rest).length).filled = true := by
        simp only [Value.filled, List.length_cons, bne_iff_ne]
        omega
      rw [if_pos hfilled]
  unfold Objects.query
  rw [against_bind_ok (against_count hc hfilter hserver)]
  simp only [hsome, Bool.false_eq_true, if_false, Objects.offsetOf, Value.whole?, pure_bind, hoffset,
    filterParam_of_ne_empty hfilter]
  rw [against_bind_ok hanswer, startedIn_bind, startedIn_membersOf, membersIn,
    Exchange.done_bind_eq]
  dsimp only
  rw [hresults, startedIn_bind, Objects.startedIn_pageTotal, htotal]
  rfl

end

end

end Backend

end ScimBridge
