import ScimBridge.Proofs.Backend.Failures
import ScimBridge.Proofs.Service.Reading

/-!
# Failures of the backend, as the service answers them

Whichever call of the service meets a failure of the backend, and at whichever request, it ends with
a refusal whose status depends on the status of the failure alone; what the backend or the
connection said of it stays inside (`failures_uniform`).
-/

namespace ScimBridge

namespace Service

open Backend

variable {α : Type}

/-- The refusal that a failure stands for: a fault of the request keeps its status, and a conflict is
one of uniqueness; everything else is a fault of the backend. -/
def Yields : Answer → ScimError → Prop
  | .response status _, e => (status < 500 → e.status = status) ∧ (500 ≤ status → e.status = 502) ∧
      (status = 409 → e.scimType = some "uniqueness")
  | .failure _, e => e.status = 502

/-- An error by which the service refuses, as a failure asks for it. -/
def Refusing (answer : Answer) (e : ServiceError) : Prop :=
  ∃ refusal, e = .scim refusal ∧ Yields answer refusal

theorem yields_ofBackendStatus {status : Int} (h : 400 ≤ status) (text action : String) :
    Yields (.response status text) (.ofBackendStatus status action) := by
  unfold Yields ScimError.ofBackendStatus
  by_cases hmissing : status = 404
  · subst hmissing
    simp
  by_cases hconflict : status = 409
  · subst hconflict
    simp
  by_cases hrequest : status < 500
  · have hbackend : ¬ 500 ≤ status := by omega
    simp [hmissing, hconflict, h, hrequest, hbackend]
  · simp [hmissing, hconflict, hrequest]

theorem refusing_of_reports (action missing : String) {answer : Answer} {e : BackendError}
    (h : Reports answer e) : Refusing answer (ofBackendError action missing e) := by
  cases h with
  | status hstatus text endpoint text' => exact ⟨_, rfl, yields_ofBackendStatus hstatus text action⟩
  | missing text object id => exact ⟨_, rfl, by simp [Yields]⟩
  | failure text endpoint text' => exact ⟨_, rfl, rfl⟩

theorem refusing_ask (action missing : String) {x : Action α} (h : FailsOn Reports x) :
    FailsOn Refusing (ask action missing x) := by
  intro c
  rw [startedIn_ask]
  refine (h c).bind ?_ fun p => trivial
  rintro answer ⟨outcome, c'⟩ ⟨e, rfl, hreports⟩
  exact ⟨_, rfl, _, rfl, refusing_of_reports action missing hreports⟩

theorem refusing_settle (x : Outcome α) : FailsOn Refusing (settle x : Operation α) :=
  fun _ => trivial

variable (s : Setup)

/-- Every call of the service that meets a failure refuses, as the failure asks for it. -/
theorem refusing_answer (kind : Kind) (caller : Caller) (call : Call) :
    FailsOn Refusing (s.answer kind caller call) := by
  have hget : ∀ id, FailsOn Refusing (s.get kind id caller) := fun id =>
    (refusing_ask _ _ Objects.reports_read).bind fun _ => refusing_settle _
  cases call with
  | list query =>
    refine (refusing_settle _).bind fun page => (refusing_settle _).bind fun filter =>
      (refusing_ask _ _ (Objects.reports_query _)).bind fun found => ?_
    exact (refusing_settle _).bind fun objects => (refusing_settle _).bind fun resources => .pure _
  | get id => exact hget id
  | create resource =>
    exact (refusing_settle _).bind fun attributes =>
      (refusing_ask _ _ (Objects.reports_create _)).bind fun _ => refusing_settle _
  | replace id resource revision =>
    exact (refusing_settle _).bind fun attributes =>
      (refusing_ask _ _ (Objects.reports_replace _ _)).bind fun _ => refusing_settle _
  | patch id request revision =>
    refine (refusing_settle _).bind fun operations => ?_
    split
    · exact hget id
    · exact (refusing_ask _ _ (Objects.reports_patch _ _)).bind fun _ => refusing_settle _
  | delete id revision =>
    exact (refusing_ask _ _ (Objects.reports_delete _)).bind fun _ => .pure _
  | translate filter => exact (refusing_settle _).bind fun _ => .pure _

/-- Two answers that are the same, or the same failure in other words. -/
inductive SameFailure : Answer → Answer → Prop where
  | same (answer : Answer) : SameFailure answer answer
  | response {status : Int} (h : 400 ≤ status) (text text' : String) :
    SameFailure (.response status text) (.response status text')
  | failure (text text' : String) : SameFailure (.failure text) (.failure text')

theorem interchangeable_of_sameFailure {D : Option Value → Value → Value → Prop}
    {r : Backend.Request} {answer answer' : Answer} (h : SameFailure answer answer') :
    Interchangeable D r answer answer' := by
  cases h with
  | same => exact .same _
  | response hstatus text text' => exact .refusal hstatus text text'
  | failure text text' => exact .failure text text'

/-- If any request of a call is answered with an error status, or not at all, the call is refused:
with the status of the answer if that is below 500 (and as a conflict of uniqueness if it is 409),
else with 502. And what such answers say has no influence: with other words in them, the outcome and
the requests are the same. -/
theorem failures_uniform (type : String) (caller : Caller) (call : Call) (client : Client)
    (script : List Answer) :
    let run := startedIn (s.perform type caller call) client
    (∀ answer ∈ run.heard script, answer.IsFailure → ∃ refusal,
      (run.play script).result.1 = .error (.scim refusal) ∧ Yields answer refusal) ∧
    ∀ script', List.Forall₂ SameFailure script script' →
      (run.play script').result = (run.play script).result ∧
      (run.play script').calls = (run.play script).calls := by
  intro run
  cases htype : Kind.ofText? type with
  | none =>
    have hdone : ∃ p, run = .done p := by
      simp only [run, Setup.perform, htype]
      cases call.check <;> exact ⟨_, rfl⟩
    obtain ⟨p, hp⟩ := hdone
    rw [hp]
    exact ⟨fun answer hanswer => (List.not_mem_nil hanswer).elim, fun _ _ => ⟨rfl, rfl⟩⟩
  | some kind =>
    have hrun : run = startedIn (s.answer kind caller call) client := by
      simp only [run, Setup.perform, htype]
    rw [hrun]
    constructor
    · intro answer hanswer hfailure
      obtain ⟨_, hresult, refusal, rfl, hyields⟩ :=
        (refusing_answer s kind caller call client).result script answer hanswer hfailure
      exact ⟨refusal, hresult, hyields⟩
    · intro script' hscripts
      have hmeets := Exchange.meets_of_forall₂ (R := Interchangeable (SameDocument s.config kind))
        .same (fun _ _ _ => interchangeable_of_sameFailure)
        (startedIn (s.answer kind caller call) client) hscripts
      obtain ⟨hcalls, houtcome, hclient⟩ := (parallel_answer s kind caller call client).play hmeets
      exact ⟨Prod.ext houtcome.eq.symm hclient.symm, hcalls.symm⟩

/-- A page that is not to be had, behind a total, is refused without what the backend says of it. -/
theorem failing_page_refused :
    let run := startedIn (Setup.perform ⟨{}, .empty⟩ "User" ⟨some "token", ""⟩ (.list []))
      (.ofAddress usualAddress)
    let total : Answer := .response 200 "\x7b\"resultCount\":3\x7d"
    (∃ refusal, (run.play [total, .response 503 "at db-3"]).result.1 = .error (.scim refusal) ∧
      refusal.status = 502) ∧
    (run.play [total, .response 503 "down"]).result =
      (run.play [total, .response 503 "at db-3"]).result := by
  intro run total
  obtain ⟨hrefused, hwords⟩ := failures_uniform ⟨{}, .empty⟩ "User" ⟨some "token", ""⟩ (.list [])
    (.ofAddress usualAddress) [total, .response 503 "at db-3"]
  constructor
  · have hfailure : (Answer.response 503 "at db-3").IsFailure := by
      show (400 : Int) ≤ 503
      decide
    have hheard : Answer.response 503 "at db-3" ∈ run.heard [total, .response 503 "at db-3"] := by
      decide +kernel
    obtain ⟨refusal, hresult, -, hstatus, -⟩ := hrefused _ hheard hfailure
    exact ⟨refusal, hresult, hstatus (by decide)⟩
  · exact (hwords _ (.cons (.same _) (.cons (.response (by decide) _ _) .nil))).1

end Service

end ScimBridge
