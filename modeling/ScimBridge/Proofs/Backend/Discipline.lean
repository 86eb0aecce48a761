import ScimBridge.Proofs.Backend.Renewal
import ScimBridge.Proofs.Outcomes

/-!
# The service token over whole runs

A client is used in any order: a service account or a given token is taken into use, time goes by,
and requests are sent with a caller's token or without one. Whatever has gone before, a request with
a caller's token goes out alone and changes nothing; a request without one bears the stored token as
long as its recorded deadline lies ahead, and otherwise waits for a token that the token server
grants, or fails (`service_token_disciplined`).

1. `startedIn_current_of_isLive` and its neighbours: what a request without a caller's token begins
   with.
2. `Origin` keeps what the client does not: when the stored token was granted, and for how long. A
   renewal that fails halfway stores a token under an old deadline, but its own deadline would lie
   behind the calendar (`Sound.renewed`), so no token is ever sent past the time for which it is
   kept.
-/

namespace ScimBridge

namespace Instant

/-- A span that is not negative leads to the instant behind it, or past the end of the calendar. -/
theorem after_of_nonneg {t : Instant} {span : Int} (ht : begin1 ≤ t) (hspan : 0 ≤ span) :
    (t.after span = .ok (t + span) ∧ t + span < end9999) ∨
      (∃ fault, t.after span = .error fault) ∧ end9999 ≤ t + span := by
  have hday : 0 < perDay := by decide
  -- the longest span leads from the beginning of the calendar past its end
  have hreach : end9999 ≤ begin1 + perDay * maxDays := by decide
  have hfar (hmany : maxDays ≤ Int.fdiv span perDay) : end9999 ≤ t + span :=
    calc end9999 ≤ begin1 + perDay * maxDays := hreach
      _ ≤ begin1 + perDay * Int.fdiv span perDay :=
        Int.add_le_add_left (Int.mul_le_mul_of_nonneg_left hmany (Int.le_of_lt hday)) _
      _ ≤ t + span := Int.add_le_add ht (Int.mul_fdiv_self_le hday)
  have hnonneg : 0 ≤ Int.fdiv span perDay := Int.fdiv_nonneg hspan (Int.le_of_lt hday)
  unfold after
  dsimp only
  split
  · rename_i himmense
    have hmany : maxDays ≤ Int.fdiv span perDay := by
      unfold immenseDays at himmense
      unfold maxDays
      omega
    exact .inr ⟨⟨_, rfl⟩, hfar hmany⟩
  · split
    · rename_i hlong
      have hmany : maxDays ≤ Int.fdiv span perDay := by
        unfold maxDays at hlong ⊢
        omega
      exact .inr ⟨⟨_, rfl⟩, hfar hmany⟩
    · split
      · rename_i hcalendar
        exact .inl ⟨rfl, hcalendar.2⟩
      · rename_i hcalendar
        have hstart : begin1 ≤ t + span := Int.le_trans ht (Int.le_add_of_nonneg_right hspan)
        exact .inr ⟨⟨_, rfl⟩, Int.not_lt.1 fun hlt => hcalendar ⟨hstart, hlt⟩⟩

theorem lt_end9999_of_after {t deadline : Instant} {span : Int}
    (h : t.after span = .ok deadline) : deadline < end9999 := by
  unfold after at h
  dsimp only at h
  split at h
  · cases h
  · split at h
    · cases h
    · split at h
      · rename_i hcalendar
        cases h
        exact hcalendar.2
      · cases h

end Instant

namespace Backend

/-! ## What an answer grants -/

namespace Token

/-- An answer of the token server that grants a token for a number of seconds: a success with an
object that holds the token, and a whole number of seconds or none. -/
def Grants (answer : Answer) (token : Value) (seconds : Int) : Prop :=
  ∃ text members, answer = .response 200 text ∧ Value.ofDocument text = .ok (.object members) ∧
    Fields.get? members "access_token" = some token ∧
    ((Fields.get? members "expires_in").getD (.int 60)).toWhole = .ok seconds

variable {k : Credentials} {answer : Answer} {token : Value} {seconds : Int}

theorem ofAnswer_eq_ok_iff {v : Value} : ofAnswer v = .ok (token, seconds) ↔
    ∃ members, v = .object members ∧ Fields.get? members "access_token" = some token ∧
      ((Fields.get? members "expires_in").getD (.int 60)).toWhole = .ok seconds := by
  constructor
  · intro h
    unfold ofAnswer at h
    split at h
    · rename_i members
      split at h
      · cases h
      · rename_i found hfound
        obtain ⟨n, hn, he⟩ := map_eq_ok_iff.1 h
        cases he
        exact ⟨members, rfl, hfound, mapError_eq_ok_iff.1 hn⟩
    · cases h
  · rintro ⟨members, rfl, htoken, hseconds⟩
    have hname : Fields.get? members TokenFault.tokenName = some token := htoken
    unfold ofAnswer
    simp only [hname]
    exact map_eq_ok_iff.2 ⟨seconds, mapError_eq_ok_iff.2 hseconds, rfl⟩

theorem fetched_eq_ok_iff : fetched k answer = .ok (token, seconds) ↔
    Grants answer token seconds := by
  constructor
  · intro h
    cases answer with
    | failure text => cases h
    | response status text =>
      by_cases hstatus : status = 200
      · subst hstatus
        rw [fetched_success] at h
        cases hdocument : documentIn text with
        | error e =>
          rw [hdocument] at h
          cases h
        | ok v =>
          rw [hdocument] at h
          obtain ⟨members, rfl, htoken, hseconds⟩ := ofAnswer_eq_ok_iff.1 (mapError_eq_ok_iff.1 h)
          exact ⟨text, members, rfl, documentIn_eq_ok_iff.1 hdocument, htoken, hseconds⟩
      · rw [fetched_refusal hstatus] at h
        cases h
  · rintro ⟨text, members, rfl, hdocument, htoken, hseconds⟩
    rw [fetched_success, documentIn_eq_ok_iff.2 hdocument]
    exact mapError_eq_ok_iff.2 (ofAnswer_eq_ok_iff.2 ⟨members, rfl, htoken, hseconds⟩)

theorem keptFor_pos (seconds : Int) : 0 < keptFor seconds := by
  unfold keptFor margin Instant.perSecond
  omega

/-- At this time the answer brings a token into use: it grants the token, and the end of its life is
in the calendar. -/
def Supplies (now : Instant) (answer : Answer) (token : Value) (deadline : Instant) : Prop :=
  ∃ seconds, Grants answer token seconds ∧ now.after (keptFor seconds) = .ok deadline

/-- An answer supplies one token. -/
theorem Supplies.unique {now : Instant} {token' : Value} {deadline deadline' : Instant}
    (h : Supplies now answer token deadline) (h' : Supplies now answer token' deadline') :
    token = token' ∧ deadline = deadline' := by
  obtain ⟨seconds, ⟨text, members, rfl, hdocument, htoken, hseconds⟩, hafter⟩ := h
  obtain ⟨seconds', ⟨_, _, he, hdocument', htoken', hseconds'⟩, hafter'⟩ := h'
  cases he
  cases hdocument.symm.trans hdocument'
  cases htoken.symm.trans htoken'
  cases hseconds.symm.trans hseconds'
  cases hafter.symm.trans hafter'
  exact ⟨rfl, rfl⟩

/-- A renewal stores the token of the answer with its deadline, or fails. -/
theorem renewedToken_cases (k : Credentials) (c : Client) (answer : Answer) :
    (∃ token deadline, Supplies c.now answer token deadline ∧
      renewedToken k c answer = (.ok token, { c with token, deadline := some deadline })) ∨
    (¬∃ token deadline, Supplies c.now answer token deadline) ∧
      ∃ e c', renewedToken k c answer = (.error e, c') := by
  unfold renewedToken renewed
  cases hfetched : fetched k answer with
  | error e =>
    refine .inr ⟨?_, e, c, rfl⟩
    rintro ⟨token, deadline, seconds, hgrants, -⟩
    cases hfetched.symm.trans (fetched_eq_ok_iff.2 hgrants)
  | ok p =>
    obtain ⟨token, seconds⟩ := p
    have hgrants := fetched_eq_ok_iff.1 hfetched
    dsimp only
    unfold kept
    cases hafter : c.now.after (keptFor seconds) with
    | ok deadline => exact .inl ⟨token, deadline, ⟨seconds, hgrants, hafter⟩, rfl⟩
    | error fault =>
      refine .inr ⟨?_, .token (.deadline fault), { c with token }, rfl⟩
      rintro ⟨token', deadline, seconds', hgrants', hafter'⟩
      cases hfetched.symm.trans (fetched_eq_ok_iff.2 hgrants')
      cases hafter.symm.trans hafter'

end Token

/-! ## One request -/

/-- The stored token may be sent now: it is not empty, and its recorded deadline lies ahead. -/
def Client.IsLive (c : Client) : Prop :=
  c.token.filled = true ∧ ∃ deadline, c.deadline = some deadline ∧ c.now < deadline

instance (c : Client) : Decidable c.IsLive :=
  decidable_of_iff (c.token.filled = true ∧ (c.deadline.any (c.now < ·)) = true)
    (and_congr_right' (by simp [Option.any_eq_true]))

section Current

variable {c : Client}

theorem startedIn_current_of_isLive (h : c.IsLive) :
    startedIn Token.current c = .done (.ok c.token, c) := by
  obtain ⟨hfilled, deadline, hdeadline, hlt⟩ := h
  unfold Token.current
  simp only [startedIn_bind, startedIn_get, Exchange.done_bind_eq, hfilled, hdeadline]
  rw [if_neg (Int.not_le.2 hlt)]
  rfl

theorem startedIn_current_of_not_isLive (h : ¬c.IsLive) :
    ∃ complaint, startedIn Token.current c = match c.credentials with
      | some k => .once (Token.request k) (Token.renewedToken k c)
      | none => .done (.error (.api 401 "" complaint), c) := by
  unfold Token.current
  simp only [startedIn_bind, startedIn_get, Exchange.done_bind_eq]
  split
  · rename_i husable
    split at husable
    · rename_i deadline hfilled hdeadline
      split at husable
      · cases husable
      · rename_i hlt
        exact absurd ⟨hfilled, deadline, hdeadline, Int.not_le.1 hlt⟩ h
    · cases husable
  · rename_i k _ hk
    rw [hk]
    exact ⟨"", Token.startedIn_renew_stored k c⟩
  · rename_i complaint _ hk
    rw [hk]
    exact ⟨complaint, rfl⟩

end Current

theorem filledText?_eq_some_iff {token : Option String} {t : String} :
    filledText? token = some t ↔ token = some t ∧ t ≠ "" := by
  simp [filledText?, Option.filter_eq_some_iff]

section Request

variable {c : Client} {token : Option String}

theorem startedIn_request_of_isLive (method path : String) (content : Content)
    (htoken : filledText? token = none) (h : c.IsLive) :
    startedIn (request method path content token) c =
      .once (bearing c method path content c.token) fun answer =>
        (received (c.baseUrl ++ path) answer, c) := by
  rw [startedIn_request, bearerFor, htoken]
  dsimp only
  rw [startedIn_current_of_isLive h]
  rfl

theorem startedIn_request_of_no_credentials (method path : String) (content : Content)
    (htoken : filledText? token = none) (h : ¬c.IsLive) (hk : c.credentials = none) :
    ∃ e, startedIn (request method path content token) c = .done (.error e, c) := by
  obtain ⟨complaint, hcurrent⟩ := startedIn_current_of_not_isLive h
  rw [hk] at hcurrent
  rw [startedIn_request, bearerFor, htoken]
  dsimp only
  rw [hcurrent]
  exact ⟨_, rfl⟩

/-- Without a live token the token server is asked first; if it supplies a token, the request goes
out with it. -/
theorem startedIn_request_of_credentials (method path : String) (content : Content)
    (htoken : filledText? token = none) (h : ¬c.IsLive) {k : Credentials}
    (hk : c.credentials = some k) :
    startedIn (request method path content token) c =
      .call (Token.request k) fun answer =>
        let p := Token.renewedToken k c answer
        match p.1 with
        | .ok bearer => .once (bearing c method path content bearer) fun answer =>
          (received (c.baseUrl ++ path) answer, p.2)
        | .error e => .done (.error e, p.2) := by
  obtain ⟨complaint, hcurrent⟩ := startedIn_current_of_not_isLive h
  rw [hk] at hcurrent
  rw [startedIn_request, bearerFor, htoken]
  dsimp only
  rw [hcurrent]
  rfl

end Request

/-! ## Runs -/

/-- Where the stored token comes from: there has been none, it was granted at a time for a number of
seconds, or it was given, with a deadline if it has one in the calendar. -/
inductive Origin where
  | absent
  | granted (since : Instant) (seconds : Int)
  | given (deadline : Option Instant)

/-- The end of the time for which the stored token is kept, as far as it is known. A token that was
granted is kept for its life less a margin. -/
def Origin.end? : Origin → Option Instant
  | .absent => none
  | .granted since seconds => some (since + Token.keptFor seconds)
  | .given deadline => deadline

/-- The origin of the stored token behind a renewal. -/
def Origin.renewed (k : Credentials) (c : Client) (answer : Answer) (o : Origin) : Origin :=
  match Token.fetched k answer with
  | .ok (_, seconds) => .granted c.now seconds
  | .error _ => o

/-- The origin of the stored token behind a request. -/
def Origin.requested (c : Client) (token : Option String) (script : List Answer) (o : Origin) :
    Origin :=
  match filledText? token, c.credentials with
  | none, some k => if c.IsLive then o else o.renewed k c (Exchange.firstAnswer script)
  | _, _ => o

theorem Origin.renewed_of_grants {k : Credentials} {c : Client} {answer : Answer} {token : Value}
    {seconds : Int} {o : Origin} (h : Token.Grants answer token seconds) :
    o.renewed k c answer = .granted c.now seconds := by
  unfold renewed
  rw [Token.fetched_eq_ok_iff.2 h]

section Requested

variable {c : Client} {o : Origin} {token : Option String} {script : List Answer}

theorem Origin.requested_of_isLive (h : c.IsLive) : o.requested c token script = o := by
  unfold requested
  split
  · rw [if_pos h]
  · rfl

theorem Origin.requested_of_credentials (htoken : filledText? token = none) (h : ¬c.IsLive)
    {k : Credentials} (hk : c.credentials = some k) :
    o.requested c token script = o.renewed k c (Exchange.firstAnswer script) := by
  unfold requested
  rw [htoken, hk]
  exact if_neg h

theorem Origin.requested_of_no_credentials (hk : c.credentials = none) :
    o.requested c token script = o := by
  unfold requested
  rw [hk]
  split
  · cases ‹none = some _›
  · rfl

end Requested

/-- The client behind an operation, with a script of answers. -/
def Client.behind {α : Type} (c : Client) (x : Action α) (script : List Answer) : Client :=
  ((startedIn x c).play script).result.2

theorem behind_request_of_credentials {c : Client} {method path : String} {content : Content}
    {token : Option String} {script : List Answer} (htoken : filledText? token = none)
    (h : ¬c.IsLive) {k : Credentials} (hk : c.credentials = some k) :
    c.behind (request method path content token) script =
      (Token.renewedToken k c (Exchange.firstAnswer script)).2 := by
  rw [Client.behind, startedIn_request_of_credentials _ _ _ htoken h hk, Exchange.play_call]
  dsimp only
  cases (Token.renewedToken k c (Exchange.firstAnswer script)).1 with
  | ok bearer => exact Exchange.result_once _ _ _ ▸ rfl
  | error e => rfl

/-- The clients that can be reached from a new one, in whatever order they are used and whatever is
answered, while the clock shows a time of the calendar. -/
inductive Reached (address : String) : Client → Origin → Prop
  | start : Reached address (.ofAddress address) .absent
  | authenticate {c : Client} {o : Origin} (k : Credentials) (script : List Answer) :
      Reached address c o → Reached address (c.behind (Token.authenticate k) script)
        (o.renewed k c (Exchange.firstAnswer script))
  | useStatic {c : Client} {o : Origin} (token seconds : Value) (script : List Answer) :
      Reached address c o → Reached address (c.behind (Token.useStatic token seconds) script)
        (.given ((Instant.spanOf seconds).toOption.bind fun span => (c.now.after span).toOption))
  | advance {c : Client} {o : Origin} (span : Int) :
      Reached address c o → Instant.begin1 ≤ c.now + span → Reached address (c.advance span) o
  | request {c : Client} {o : Origin} (method path : String) (content : Content)
      (token : Option String) (script : List Answer) :
      Reached address c o → Reached address (c.behind (request method path content token) script)
        (o.requested c token script)

/-- What holds of every client that is reached. The stored token has its own deadline, unless that
lies behind the calendar, in which all recorded deadlines are. -/
structure Sound (c : Client) (o : Origin) : Prop where
  clock : Instant.begin1 ≤ c.now
  deadline : ∀ deadline, c.deadline = some deadline → deadline < Instant.end9999
  ends : ∀ e, o.end? = some e → c.deadline = some e ∨ Instant.end9999 ≤ e

section Sound

variable {c : Client} {o : Origin} (h : Sound c o)

include h

/-- A live token is sent within the time for which it is kept. -/
theorem Sound.lt_end (hlive : c.IsLive) {e : Instant} (he : o.end? = some e) : c.now < e := by
  obtain ⟨-, deadline, hdeadline, hlt⟩ := hlive
  rcases h.ends e he with hrecorded | hbeyond
  · cases hdeadline.symm.trans hrecorded
    exact hlt
  · exact Int.lt_of_lt_of_le (Int.lt_trans hlt (h.deadline deadline hdeadline)) hbeyond

theorem Sound.withCredentials (credentials : Option Credentials) :
    Sound { c with credentials } o :=
  ⟨h.clock, h.deadline, h.ends⟩

theorem Sound.renewed (k : Credentials) (answer : Answer) :
    Sound (Token.renewedToken k c answer).2 (o.renewed k c answer) := by
  unfold Token.renewedToken Token.renewed Origin.renewed
  cases hfetched : Token.fetched k answer with
  | error e => exact h
  | ok p =>
    obtain ⟨token, seconds⟩ := p
    dsimp only
    unfold Token.kept
    rcases Instant.after_of_nonneg h.clock (Int.le_of_lt (Token.keptFor_pos seconds)) with
      ⟨hafter, hlt⟩ | ⟨⟨fault, hafter⟩, hbeyond⟩
    · rw [hafter]
      refine ⟨h.clock, fun deadline hdeadline => ?_, fun e he => .inl ?_⟩
      · cases hdeadline
        exact hlt
      · cases he
        rfl
    · rw [hafter]
      refine ⟨h.clock, h.deadline, fun e he => .inr ?_⟩
      cases he
      exact hbeyond

theorem Sound.useStatic (token seconds : Value) (script : List Answer) :
    Sound (c.behind (Token.useStatic token seconds) script)
      (.given ((Instant.spanOf seconds).toOption.bind fun span =>
        (c.now.after span).toOption)) := by
  rw [Client.behind, Token.startedIn_useStatic]
  cases Instant.spanOf seconds with
  | error fault => exact ⟨h.clock, h.deadline, fun e he => nomatch he⟩
  | ok span =>
    dsimp only [Except.toOption, Option.bind_some]
    unfold Token.kept
    cases hafter : c.now.after span with
    | error fault => exact ⟨h.clock, h.deadline, fun e he => nomatch he⟩
    | ok deadline =>
      refine ⟨h.clock, fun d hd => ?_, fun e he => .inl he⟩
      cases hd
      exact Instant.lt_end9999_of_after hafter

theorem Sound.request (method path : String) (content : Content) (token : Option String)
    (script : List Answer) :
    Sound (c.behind (request method path content token) script) (o.requested c token script) := by
  cases htoken : filledText? token with
  | some t =>
    obtain ⟨rfl, hne⟩ := filledText?_eq_some_iff.1 htoken
    have horigin : o.requested c (some t) script = o := by
      unfold Origin.requested
      rw [htoken]
    rw [horigin, Client.behind, startedIn_request_caller hne, Exchange.result_once]
    exact h
  | none =>
    by_cases hlive : c.IsLive
    · rw [Origin.requested_of_isLive hlive, Client.behind,
        startedIn_request_of_isLive _ _ _ htoken hlive, Exchange.result_once]
      exact h
    · cases hk : c.credentials with
      | none =>
        obtain ⟨e, he⟩ := startedIn_request_of_no_credentials method path content htoken hlive hk
        rw [Origin.requested_of_no_credentials hk, Client.behind, he]
        exact h
      | some k =>
        rw [Origin.requested_of_credentials htoken hlive hk,
          behind_request_of_credentials htoken hlive hk]
        exact h.renewed k _

end Sound

theorem Reached.sound {address : String} {c : Client} {o : Origin} (h : Reached address c o) :
    Sound c o := by
  induction h with
  | start =>
    have hclock : Instant.begin1 ≤ 0 := by decide
    exact ⟨hclock, (fun d hd => nomatch hd), fun e he => nomatch he⟩
  | @authenticate c o k script _ ih =>
    have hbehind : c.behind (Token.authenticate k) script = (Token.renewedToken k
        { c with credentials := some k } (Exchange.firstAnswer script)).2 := by
      rw [Client.behind, Token.startedIn_authenticate, Exchange.result_once]
    rw [hbehind]
    exact (ih.withCredentials (some k)).renewed k _
  | useStatic token seconds script _ ih => exact ih.useStatic token seconds script
  | advance span _ hclock ih => exact ⟨hclock, ih.deadline, ih.ends⟩
  | request method path content token script _ ih =>
    exact ih.request method path content token script

/-! ## The discipline -/

/-- What a request without a caller's token comes to, with a script of answers. Its target with a
token is the request that it stands for. -/
structure Disciplined (c : Client) (o : Origin) (target : Value → Request) (script : List Answer)
    (p : Exchange.Played (Except BackendError (Int × String) × Client)) : Prop where
  /-- The stored token is sent without asking the token server iff it is live. -/
  live_iff : p.calls = [target c.token] ↔ c.IsLive
  live : c.IsLive → p.result.2 = c
  /-- Without a live token and without credentials nothing is sent. -/
  refused : ¬c.IsLive → c.credentials = none → p.calls = [] ∧ ∃ e, p.result = (.error e, c)
  /-- A token that the token server supplies is sent and stored. -/
  supplied : ¬c.IsLive → ∀ k, c.credentials = some k → ∀ token deadline,
    Token.Supplies c.now (Exchange.firstAnswer script) token deadline →
      p.calls = [Token.request k, target token] ∧
        p.result.2 = { c with token, deadline := some deadline }
  /-- Without a token from the token server nothing else is sent. -/
  unsupplied : ¬c.IsLive → ∀ k, c.credentials = some k →
    (¬∃ token deadline, Token.Supplies c.now (Exchange.firstAnswer script) token deadline) →
      p.calls = [Token.request k] ∧ ∃ e, p.result.1 = .error e
  /-- What is sent to the target bears the token that is stored then, within the time for which that
  is kept. -/
  unexpired : ∀ r ∈ p.calls, (∃ k, r = Token.request k) ∨
    r = target p.result.2.token ∧ ∀ e, o.end? = some e → c.now < e

/-- The token server is not asked with a bearer token. -/
theorem request_ne_bearing (k : Credentials) (c : Client) (method path : String)
    (content : Content) (bearer : Value) :
    Token.request k ≠ bearing c method path content bearer :=
  fun h => nomatch congrArg Request.headers h

section Disciplined

variable {c : Client} {o : Origin} {method path : String} {content : Content}
  {token : Option String} {script : List Answer} (htoken : filledText? token = none)

include htoken

theorem disciplined_of_isLive (h : Sound c o) (hlive : c.IsLive) :
    Disciplined c (o.requested c token script) (bearing c method path content) script
      ((startedIn (request method path content token) c).play script) := by
  have hrequest := startedIn_request_of_isLive method path content htoken hlive
  have hcalls := congrArg (fun x => (Exchange.play x script).calls) hrequest
  have hresult := congrArg (fun x => (Exchange.play x script).result.2) hrequest
  simp only [Exchange.calls_once, Exchange.result_once] at hcalls hresult
  rw [Origin.requested_of_isLive hlive]
  refine ⟨iff_of_true hcalls hlive, fun _ => hresult, fun hnot => absurd hlive hnot,
    fun hnot => absurd hlive hnot, fun hnot => absurd hlive hnot, fun r hr => .inr ?_⟩
  rw [hcalls, List.mem_singleton] at hr
  rw [hr, hresult]
  exact ⟨rfl, fun e he => h.lt_end hlive he⟩

theorem disciplined_of_no_credentials (hnot : ¬c.IsLive) (hk : c.credentials = none) :
    Disciplined c (o.requested c token script) (bearing c method path content) script
      ((startedIn (request method path content token) c).play script) := by
  obtain ⟨e, he⟩ := startedIn_request_of_no_credentials method path content htoken hnot hk
  rw [he]
  refine ⟨iff_of_false (fun h => nomatch h) hnot, fun h => absurd h hnot, fun _ _ => ⟨rfl, e, rfl⟩,
    fun _ k hk' => ?_, fun _ k hk' => ?_, fun r hr => nomatch hr⟩
  · cases hk.symm.trans hk'
  · cases hk.symm.trans hk'

theorem disciplined_of_credentials (hnot : ¬c.IsLive) {k : Credentials}
    (hk : c.credentials = some k) :
    Disciplined c (o.requested c token script) (bearing c method path content) script
      ((startedIn (request method path content token) c).play script) := by
  have hother (calls : List Request) (bearer : Value) :
      Token.request k :: calls ≠ [bearing c method path content bearer] :=
    fun h => request_ne_bearing k c method path content bearer (List.cons.inj h).1
  rw [startedIn_request_of_credentials _ _ _ htoken hnot hk, Exchange.play_call]
  rcases Token.renewedToken_cases k c (Exchange.firstAnswer script) with
    ⟨fresh, deadline, hsupplies, hrenewed⟩ | ⟨hnone, e, c', hrenewed⟩
  · -- the token server supplies a token
    dsimp only
    rw [hrenewed]
    dsimp only
    rw [Exchange.calls_once, Exchange.result_once]
    refine ⟨iff_of_false (hother _ _) hnot, fun h => absurd h hnot, fun _ hk' => ?_,
      fun _ k' hk' token' deadline' hsupplies' => ?_, fun _ k' hk' hno => ?_, fun r hr => ?_⟩
    · cases hk.symm.trans hk'
    · cases hk.symm.trans hk'
      obtain ⟨rfl, rfl⟩ := hsupplies.unique hsupplies'
      exact ⟨rfl, rfl⟩
    · exact absurd ⟨fresh, deadline, hsupplies⟩ hno
    · rcases List.mem_cons.1 hr with rfl | hr
      · exact .inl ⟨k, rfl⟩
      · refine .inr ⟨List.mem_singleton.1 hr, fun e he => ?_⟩
        obtain ⟨seconds, hgrants, -⟩ := hsupplies
        rw [Origin.requested_of_credentials htoken hnot hk, Origin.renewed_of_grants hgrants] at he
        cases he
        exact Int.lt_add_of_pos_right c.now (Token.keptFor_pos seconds)
  · -- the token server supplies no token
    dsimp only
    rw [hrenewed]
    dsimp only [Exchange.play]
    refine ⟨iff_of_false (hother _ _) hnot, fun h => absurd h hnot, fun _ hk' => ?_,
      fun _ k' hk' token' deadline' hsupplies' => ?_, fun _ k' hk' _ => ?_, fun r hr => ?_⟩
    · cases hk.symm.trans hk'
    · exact absurd ⟨token', deadline', hsupplies'⟩ hnone
    · cases hk.symm.trans hk'
      exact ⟨rfl, e, rfl⟩
    · exact .inl ⟨k, List.mem_singleton.1 hr⟩

end Disciplined

/-- **The discipline of the service token.** In whatever state a client has been brought, and
whatever is answered: a request with a caller's token goes out alone, with that token, and leaves
the client as it is. A request without one goes out alone with the stored token iff that is live. If
it is not and there are no credentials, nothing is sent and the request fails. With credentials the
token server is asked once; if its answer supplies a token, the request goes out with this token,
which is stored with its deadline, and otherwise nothing else is sent and the request fails. What
goes out without a caller's token bears the stored token, within the time for which that is kept. -/
theorem service_token_disciplined {address : String} {c : Client} {o : Origin}
    (h : Reached address c o) (method path : String) (content : Content) (script : List Answer) :
    (∀ t, t ≠ "" →
      ((startedIn (request method path content (some t)) c).play script).calls =
          [bearing c method path content (.string t)] ∧
        ((startedIn (request method path content (some t)) c).play script).result.2 = c) ∧
    ∀ token, filledText? token = none →
      Disciplined c (o.requested c token script) (bearing c method path content) script
        ((startedIn (request method path content token) c).play script) := by
  refine ⟨fun t ht => ?_, fun token htoken => ?_⟩
  · rw [startedIn_request_caller ht, Exchange.calls_once, Exchange.result_once]
    exact ⟨rfl, rfl⟩
  · by_cases hlive : c.IsLive
    · exact disciplined_of_isLive htoken h.sound hlive
    · cases hk : c.credentials with
      | none => exact disciplined_of_no_credentials htoken hlive hk
      | some k => exact disciplined_of_credentials htoken hlive hk

/-- A client that got a token for 100 seconds, 95 seconds ago. -/
def lateClient (k : Credentials) : Client :=
  Client.advance ((Client.ofAddress "http://idm.test").behind (Token.authenticate k)
    [.response 200 "\x7b\"access_token\": \"s1\", \"expires_in\": 100\x7d"])
    (95 * Instant.perSecond)

/-- Five seconds before the end of its token the client renews it, and sends the new one. -/
theorem service_token_renewed_late :
    let k : Credentials := ⟨"http://am.test/token", "bridge", "s3cret"⟩
    let c := lateClient k
    let p := (startedIn (request "GET" "/openidm/info" {} none) c).play
      [.response 200 "\x7b\"access_token\": \"s2\"\x7d", .response 200 "\x7b\x7d"]
    p.calls = [Token.request k, bearing c "GET" "/openidm/info" {} (.string "s2")] ∧
      p.result.2.token = .string "s2" := by
  intro k c p
  let grant := "\x7b\"access_token\": \"s1\", \"expires_in\": 100\x7d"
  let script : List Answer :=
    [.response 200 "\x7b\"access_token\": \"s2\"\x7d", .response 200 "\x7b\x7d"]
  have hreached : Reached "http://idm.test" c
      (Origin.absent.renewed k (.ofAddress "http://idm.test") (.response 200 grant)) :=
    .advance _ (.authenticate k [.response 200 grant] .start) (by decide +kernel)
  have hlate : ¬c.IsLive := by decide +kernel
  have hsupplies : Token.Supplies c.now (Exchange.firstAnswer script) (.string "s2")
      (145 * Instant.perSecond) :=
    ⟨60, ⟨_, [("access_token", .string "s2")], rfl, rfl, rfl, rfl⟩, by decide +kernel⟩
  obtain ⟨hcalls, hclient⟩ :=
    ((service_token_disciplined hreached "GET" "/openidm/info" {} script).2 none rfl).supplied
      hlate k rfl _ _ hsupplies
  exact ⟨hcalls, congrArg Client.token hclient⟩

end Backend

end ScimBridge
