import ScimBridge.Proofs.Backend.Bodies
import ScimBridge.Proofs.Backend.Renewal
import ScimBridge.Proofs.Backend.Server

/-!
# Transcripts

The transcript of a run are its requests, each with the answer to it. `Exchange.Runs x t a` says that
an exchange comes to a result with a transcript; a composition runs iff its parts run one after the
other (`runs_bind_iff`), and what is played against a script runs (`runs_transcript`). So the result
of an operation can be taken apart into those of its steps, with what was answered in each of them.

A document that was read is what the last answer tells (`gives_requestDocument`), and a page rests on
one such answer or two (`gives_query`).
-/

namespace ScimBridge

namespace Backend

/-- Requests, each with its answer. -/
abbrev Transcript := List (Request × Answer)

namespace Exchange

variable {α β : Type} {t : Transcript}

/-- An exchange comes to a result with a transcript. -/
inductive Runs : Exchange α → Transcript → α → Prop where
  | done (a : α) : Runs (.done a) [] a
  | call {request : Request} {next : Answer → Exchange α} {t : Transcript} {a : α}
    (answer : Answer) (h : Runs (next answer) t a) :
    Runs (.call request next) ((request, answer) :: t) a

theorem runs_done_iff {a b : α} : (done a).Runs t b ↔ t = [] ∧ b = a := by
  constructor
  · intro h
    cases h
    exact ⟨rfl, rfl⟩
  · rintro ⟨rfl, rfl⟩
    exact .done b

theorem runs_once_iff {request : Request} {f : Answer → α} {a : α} :
    (once request f).Runs t a ↔ ∃ answer, t = [(request, answer)] ∧ a = f answer := by
  constructor
  · intro h
    cases h with
    | call answer h =>
      obtain ⟨rfl, ha⟩ := runs_done_iff.1 h
      exact ⟨answer, rfl, ha⟩
  · rintro ⟨answer, rfl, rfl⟩
    exact .call answer (.done _)

/-- The parts of a composition run one after the other. -/
theorem runs_bind_iff {x : Exchange α} {f : α → Exchange β} {b : β} :
    (x >>= f).Runs t b ↔ ∃ a first second, t = first ++ second ∧ x.Runs first a ∧
      (f a).Runs second b := by
  constructor
  · intro h
    induction x generalizing t with
    | done a => exact ⟨a, [], t, rfl, .done a, h⟩
    | call request next ih =>
      cases h with
      | call answer h =>
        obtain ⟨a, first, second, rfl, hfirst, hsecond⟩ := ih answer h
        exact ⟨a, (request, answer) :: first, second, rfl, .call answer hfirst, hsecond⟩
  · rintro ⟨a, first, second, rfl, hfirst, hsecond⟩
    induction hfirst with
    | done a => exact hsecond
    | call answer _ ih => exact .call answer (ih hsecond)

/-- What is guaranteed holds of the requests and of the result. -/
theorem Runs.ensured {x : Exchange α} {a : α} (h : x.Runs t a) {P : Request → Prop} {Q : α → Prop}
    (hx : x.Ensures P Q) : (∀ e ∈ t, P e.1) ∧ Q a := by
  induction h with
  | done a => exact ⟨fun e he => absurd he List.not_mem_nil, hx⟩
  | call answer _ ih =>
    obtain ⟨hrest, hresult⟩ := ih (hx.2 answer)
    exact ⟨List.forall_mem_cons.2 ⟨hx.1, hrest⟩, hresult⟩

/-- The transcript of an exchange that is played against a script. -/
def transcript : Exchange α → List Answer → Transcript
  | .done _, _ => []
  | .call request next, script =>
    (request, firstAnswer script) :: (next (firstAnswer script)).transcript script.tail

/-- What is played runs. -/
theorem runs_transcript (x : Exchange α) (script : List Answer) :
    x.Runs (x.transcript script) (x.play script).result := by
  induction x generalizing script with
  | done a => exact .done a
  | call request next ih =>
    rw [play_call]
    exact .call _ (ih _ _)

/-- The requests of a transcript are those that are sent. -/
theorem requests_transcript (x : Exchange α) (script : List Answer) :
    (x.transcript script).map Prod.fst = (x.play script).calls := by
  induction x generalizing script with
  | done a => rfl
  | call request next ih =>
    rw [play_call, transcript, List.map_cons, ih]

end Exchange

/-! ## Operations -/

section Operations

variable {ε σ α β : Type} {x : ExceptT ε (StateT σ Exchange) α} {s s' : σ} {t : Transcript}

/-- An operation that is begun in a state has a result with a transcript, and leaves a state. -/
def Gives (x : ExceptT ε (StateT σ Exchange) α) (s : σ) (t : Transcript) (a : α) (s' : σ) : Prop :=
  (startedIn x s).Runs t (.ok a, s')

theorem gives_of_done {outcome : Except ε α} (h : startedIn x s = .done (outcome, s)) {a : α} :
    Gives x s t a s' ↔ t = [] ∧ outcome = .ok a ∧ s' = s := by
  rw [Gives, h, Exchange.runs_done_iff, Prod.mk.injEq, @eq_comm _ (Except.ok a)]

/-- The steps of an operation have results one after the other. -/
theorem gives_bind_iff {f : α → ExceptT ε (StateT σ Exchange) β} {b : β} :
    Gives (x >>= f) s t b s' ↔ ∃ a between first second, t = first ++ second ∧
      Gives x s first a between ∧ Gives (f a) between second b s' := by
  unfold Gives
  rw [startedIn_bind, Exchange.runs_bind_iff]
  constructor
  · rintro ⟨⟨outcome, between⟩, first, second, rfl, hfirst, hsecond⟩
    cases outcome with
    | error e => cases hsecond
    | ok a => exact ⟨a, between, first, second, rfl, hfirst, hsecond⟩
  · rintro ⟨a, between, first, second, rfl, hfirst, hsecond⟩
    exact ⟨(.ok a, between), first, second, rfl, hfirst, hsecond⟩

/-- What an operation that is played comes to. -/
theorem gives_of_play {script : List Answer} {a : α}
    (h : ((startedIn x s).play script).result.1 = .ok a) :
    Gives x s ((startedIn x s).transcript script) a ((startedIn x s).play script).result.2 := by
  unfold Gives
  rw [← h]
  exact (startedIn x s).runs_transcript script

end Operations

/-! ## Documents -/

variable {token : Option String} {c c' : Client} {t : Transcript}

/-- A transcript of renewals. -/
def Renewals (t : Transcript) : Prop := ∀ e ∈ t, ∃ k, e.1 = Token.request k

/-- Behind renewals of the service token, a transcript asks for something, and it is told members. -/
def Asks (params : Option Value) (t : Transcript) (members : Fields Value) : Prop :=
  ∃ before request answer, t = before ++ [(request, answer)] ∧ Renewals before ∧
    request.params = params ∧ Tells answer members

theorem renewals_bearerFor {p : Except BackendError Value × Client}
    (h : (startedIn (bearerFor token) c).Runs t p) : Renewals t :=
  (h.ensured (onlySends_bearerFor (P := fun r => ∃ k, r = Token.request k) (fun k => ⟨k, rfl⟩)
    token c)).1

/-- What is received is the last answer. -/
theorem gives_request {method path : String} {content : Content} {status : Int} {text : String}
    (h : Gives (request method path content token) c t (status, text) c') :
    ∃ before r, t = before ++ [(r, .response status text)] ∧ Renewals before ∧
      r.params = content.params ∧ status < 400 := by
  unfold Gives at h
  rw [startedIn_request] at h
  obtain ⟨⟨outcome, c₁⟩, before, last, rfl, hbefore, hlast⟩ := Exchange.runs_bind_iff.1 h
  cases outcome with
  | error e => cases hlast
  | ok bearer =>
    obtain ⟨answer, rfl, hreceived⟩ := Exchange.runs_once_iff.1 hlast
    obtain ⟨hreceived, -⟩ := Prod.mk.inj hreceived
    obtain ⟨rfl, hstatus⟩ := received_eq_ok hreceived.symm
    exact ⟨before, _, rfl, renewals_bearerFor hbefore, rfl, hstatus⟩

/-- A document is read in the last answer. -/
theorem gives_requestDocument {method path : String} {content : Content} {members : Fields Value}
    (h : Gives (requestDocument method path content token) c t (.object members) c') :
    Asks content.params t members := by
  obtain ⟨⟨status, text⟩, c₁, first, second, rfl, hfirst, hsecond⟩ := gives_bind_iff.1 h
  obtain ⟨before, r, rfl, hbefore, hparams, hstatus⟩ := gives_request hfirst
  obtain ⟨rfl, hdocument, -⟩ := (gives_of_done (startedIn_readDocument text c₁)).1 hsecond
  rw [List.append_nil]
  exact ⟨before, r, _, rfl, hbefore, hparams, status, text, rfl, hstatus,
    Token.documentIn_eq_ok_iff.1 hdocument⟩

namespace Objects

/-- The members of an answer are those of the document that is read. -/
theorem gives_members {method path : String} {content : Content} {α : Type}
    {f : Fields Value → Action α} {a : α}
    (h : Gives (do f (← membersOf (← requestDocument method path content token))) c t a c') :
    ∃ members c₁ first second, t = first ++ second ∧ Asks content.params first members ∧
      Gives (f members) c₁ second a c' := by
  obtain ⟨v, c₁, first, second, rfl, hfirst, hsecond⟩ := gives_bind_iff.1 h
  obtain ⟨members, c₂, none, rest, rfl, hmembers, hrest⟩ := gives_bind_iff.1 hsecond
  obtain ⟨rfl, hobject, rfl⟩ := (gives_of_done (startedIn_membersOf v c₁)).1 hmembers
  cases v with
  | object members' =>
    cases hobject
    exact ⟨members, c₂, first, rest, rfl, gives_requestDocument hfirst, hrest⟩
  | _ => cases hobject

/-- What asks for the number of objects that meet a filter. -/
def countParams (filter : Value) : Fields Value :=
  [filterParam filter, ("_countOnly", .string "true"), exactParam]

/-- What asks for a page of objects that meet a filter. -/
def pageParams (filter : Value) (offset count : Int) : Fields Value :=
  [filterParam filter, ("_pagedResultsOffset", .int offset), ("_pageSize", .int count), exactParam]

variable {object : String} {filter counted : Value}

theorem gives_count (h : Gives (count object filter token) c t counted c') :
    ∃ stated, Asks (some (.object (countParams filter))) t stated ∧ counted = totalOf stated := by
  obtain ⟨stated, c₁, first, second, rfl, hfirst, hsecond⟩ := gives_members h
  obtain ⟨rfl, htotal, -⟩ := (gives_of_done rfl).1 hsecond
  cases htotal
  rw [List.append_nil]
  exact ⟨stated, hfirst, rfl⟩

/-- A query asks for the total first. A page of size zero is that total alone; any other one rests on
a second answer, and on the total unless that is not filled in. -/
theorem gives_query {start size : Int} {page : Page} (h : Gives (query object
      { filter, start := .int start, count := .int size } token) c t page c') :
    ∃ first second stated, t = first ++ second ∧
      Asks (some (.object (countParams filter))) first stated ∧
      (size = 0 → page = ⟨totalOf stated, .array []⟩) ∧
      (size ≠ 0 → ∃ given,
        Asks (some (.object (pageParams filter (max start 1 - 1) size))) second given ∧
        pageIn (totalOf stated) given = .ok page) := by
  obtain ⟨counted, c₁, first, second, rfl, hcount, hrest⟩ := gives_bind_iff.1 h
  obtain ⟨stated, hstated, rfl⟩ := gives_count hcount
  refine ⟨first, second, stated, rfl, hstated, fun hsize => ?_, fun hsize => ?_⟩
  · have hnone : (Value.int size == .int 0) = true := by
      rw [int_beq_zero, decide_eq_true hsize]
    simp only [hnone, if_true] at hrest
    obtain ⟨-, hpage, -⟩ := (gives_of_done (startedIn_pure _)).1 hrest
    cases hpage
    rfl
  · have hsome : (Value.int size == .int 0) = false := by
      rw [int_beq_zero, decide_eq_false hsize]
    simp only [hsome, Bool.false_eq_true, if_false] at hrest
    obtain ⟨offset, c₂, none, second, rfl, hoffset, hsecond⟩ := gives_bind_iff.1 hrest
    obtain ⟨rfl, hoffset, rfl⟩ := (gives_of_done rfl).1 hoffset
    cases hoffset
    obtain ⟨given, c₃, second, last, rfl, hgiven, hlast⟩ := gives_members hsecond
    obtain ⟨total, c₄, none, final, rfl, hcounted, hfinal⟩ := gives_bind_iff.1 hlast
    obtain ⟨rfl, htotal, rfl⟩ := (gives_of_done (startedIn_pageTotal _ _ _)).1 hcounted
    obtain ⟨rfl, hpage, -⟩ := (gives_of_done rfl).1 hfinal
    cases hpage
    rw [List.nil_append, List.append_nil, List.append_nil]
    refine ⟨given, hgiven, ?_⟩
    rw [pageIn, htotal]
    rfl

end Objects

end Backend

end ScimBridge
