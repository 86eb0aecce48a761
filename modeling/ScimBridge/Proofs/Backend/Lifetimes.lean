import ScimBridge.Proofs.Backend.Discipline

/-!
# The lifetimes of service tokens

A token that the token server grants for a number of seconds is sent until a margin before the end
of that time, but never for less than the margin. So a token that lives as long as the margin or
longer is not sent past its life, and one with a shorter life is (`service_token_lifetime`).

1. `unexpired_of_reached`: along every run, what a request bears is sent within the time for which
   it is kept.
2. `calls_later_iff`: a token that has just been granted is sent for all of that time.
3. `Token.keptFor_le_iff`: when that time lies within the token's life.
-/

namespace ScimBridge

namespace Backend

namespace Token

/-- The time that a token server gives to a token, in microseconds. -/
def lifeOf (seconds : Int) : Int := seconds * Instant.perSecond

/-- A token is kept within its life iff that is not shorter than the margin. -/
theorem keptFor_le_iff (seconds : Int) : keptFor seconds ≤ lifeOf seconds ↔ margin ≤ seconds := by
  unfold keptFor lifeOf
  rw [Int.mul_le_mul_right (by decide)]
  unfold margin
  omega

/-- It is kept until a margin before the end of its life, or for the margin. -/
theorem keptFor_eq (seconds : Int) :
    keptFor seconds = max (lifeOf (seconds - margin)) (lifeOf margin) := by
  unfold keptFor lifeOf Instant.perSecond
  omega

theorem keptFor_of_lt {seconds : Int} (h : seconds < margin) : keptFor seconds = lifeOf margin := by
  unfold keptFor lifeOf
  unfold margin at h ⊢
  rw [Int.max_eq_right (by omega)]

end Token

/-- The client to which the answer to an authentication has come, a span of time later. -/
def Client.later (c : Client) (k : Credentials) (answer : Answer) (span : Int) : Client :=
  (c.behind (Token.authenticate k) [answer]).advance span

variable {address : String} {c : Client} {o : Origin}

/-! ## Along a run -/

section Reached

variable (h : Reached address c o) {method path : String} {content : Content}
  {token : Option String} (htoken : filledText? token = none) {script : List Answer}

include h htoken

theorem disciplined_of_reached :
    Disciplined c (o.requested c token script) (bearing c method path content) script
      ((startedIn (request method path content token) c).play script) := by
  by_cases hlive : c.IsLive
  · exact disciplined_of_isLive htoken h.sound hlive
  · cases hk : c.credentials with
    | none => exact disciplined_of_no_credentials htoken hlive hk
    | some k => exact disciplined_of_credentials htoken hlive hk

/-- A token that has been granted is sent within the time for which it is kept. -/
theorem unexpired_of_reached {since : Instant} {seconds : Int}
    (hgranted : o.requested c token script = .granted since seconds) {r : Request}
    (hr : r ∈ ((startedIn (request method path content token) c).play script).calls) :
    (∃ k, r = Token.request k) ∨
      r = bearing c method path content
          ((startedIn (request method path content token) c).play script).result.2.token ∧
        c.now < since + Token.keptFor seconds := by
  rcases (disciplined_of_reached h htoken).unexpired r hr with hrenewal | ⟨hr, hend⟩
  · exact .inl hrenewal
  · exact .inr ⟨hr, hend _ (congrArg Origin.end? hgranted)⟩

end Reached

/-! ## Behind a grant -/

section Granted

variable {k : Credentials} {answer : Answer} {token : Value} {seconds : Int}
  (hclock : Instant.begin1 ≤ c.now) (hgrants : Token.Grants answer token seconds)
  (hend : c.now + Token.keptFor seconds < Instant.end9999)

include hclock hgrants hend

/-- A client that a token is granted to stores it with its deadline. -/
theorem later_eq (span : Int) : c.later k answer span =
    { c with
      credentials := some k
      token
      deadline := some (c.now + Token.keptFor seconds)
      now := c.now + span } := by
  have hafter : c.now.after (Token.keptFor seconds) = .ok (c.now + Token.keptFor seconds) := by
    rcases Instant.after_of_nonneg hclock (Int.le_of_lt (Token.keptFor_pos seconds)) with
      ⟨hafter, -⟩ | ⟨-, hbeyond⟩
    · exact hafter
    · exact absurd hend (Int.not_lt.2 hbeyond)
  rw [Client.later, Client.behind, Token.startedIn_authenticate, Exchange.result_once]
  show (Token.renewedToken k { c with credentials := some k } answer).2.advance span = _
  unfold Token.renewedToken Token.renewed
  rw [Token.fetched_eq_ok_iff.2 hgrants]
  dsimp only
  unfold Token.kept
  dsimp only
  rw [hafter]
  rfl

theorem isLive_later_iff (hfilled : token.filled = true) (span : Int) :
    (c.later k answer span).IsLive ↔ span < Token.keptFor seconds := by
  rw [later_eq hclock hgrants hend]
  unfold Client.IsLive
  simp only [hfilled, true_and, Option.some.injEq, exists_eq_left']
  exact Int.add_lt_add_iff_left c.now

/-- A token that has been granted is sent without asking for another one for just the time for which
it is kept. -/
theorem calls_later_iff (hfilled : token.filled = true) (span : Int) (method path : String)
    (content : Content) (script : List Answer) :
    ((startedIn (request method path content none) (c.later k answer span)).play script).calls =
        [bearing (c.later k answer span) method path content token] ↔
      span < Token.keptFor seconds := by
  have hlater := later_eq (k := k) hclock hgrants hend span
  have htoken : (c.later k answer span).token = token := by rw [hlater]
  have hk : (c.later k answer span).credentials = some k := by rw [hlater]
  rw [← isLive_later_iff (k := k) hclock hgrants hend hfilled]
  by_cases hlive : (c.later k answer span).IsLive
  · rw [startedIn_request_of_isLive method path content rfl hlive, Exchange.calls_once, htoken]
    exact iff_of_true rfl hlive
  · rw [startedIn_request_of_credentials method path content rfl hlive hk, Exchange.play_call]
    refine iff_of_false (fun h => ?_) hlive
    exact request_ne_bearing k _ method path content _ (List.cons.inj h).1

/-- It is sent within its life at all times iff it lives as long as the margin. -/
theorem sent_within_life_iff (hfilled : token.filled = true) :
    (∀ span, 0 ≤ span → ∀ method path content script,
      ((startedIn (request method path content none) (c.later k answer span)).play script).calls =
        [bearing (c.later k answer span) method path content token] →
      span < Token.lifeOf seconds) ↔ Token.margin ≤ seconds := by
  constructor
  · intro h
    by_contra hshort
    -- at the end of its life, the token is still kept
    have hlt : max (Token.lifeOf seconds) 0 < Token.keptFor seconds := by
      rw [Token.keptFor_of_lt (Int.not_le.1 hshort)]
      unfold Token.margin at hshort ⊢
      unfold Token.lifeOf Instant.perSecond
      omega
    have hsent := h (max (Token.lifeOf seconds) 0) (Int.le_max_right _ _) "" "" {} []
      ((calls_later_iff hclock hgrants hend hfilled _ "" "" {} []).2 hlt)
    exact absurd hsent (Int.not_lt.2 (Int.le_max_left _ _))
  · intro hlong span _ method path content script hsent
    have hlt :=
      (calls_later_iff hclock hgrants hend hfilled span method path content script).1 hsent
    exact Int.lt_of_lt_of_le hlt ((Token.keptFor_le_iff seconds).2 hlong)

end Granted

/-- **How long a token is sent.** In whatever state a client has been brought, and whatever is
answered: what goes out without a caller's token bears a token that, if it was granted, is sent
until a margin before the end of its life, or for the margin where that is later; so within its life
if that is not shorter than the margin. This cannot be dropped: where a token is granted to the
client, it is sent, without asking for another one, for just that time, and so within its life at
all times iff that is not shorter than the margin. -/
theorem service_token_lifetime (h : Reached address c o) :
    (∀ (method path : String) (content : Content) (token : Option String) (script : List Answer)
        (since : Instant) (seconds : Int), filledText? token = none →
      o.requested c token script = .granted since seconds →
      ∀ r ∈ ((startedIn (request method path content token) c).play script).calls,
        (∃ k, r = Token.request k) ∨
          r = bearing c method path content
            ((startedIn (request method path content token) c).play script).result.2.token ∧
          c.now < since + max (Token.lifeOf (seconds - Token.margin)) (Token.lifeOf Token.margin) ∧
          (Token.margin ≤ seconds → c.now < since + Token.lifeOf seconds)) ∧
    ∀ (k : Credentials) (answer : Answer) (token : Value) (seconds : Int),
      Token.Grants answer token seconds → token.filled = true →
      c.now + Token.keptFor seconds < Instant.end9999 →
      (∀ span method path content script,
        ((startedIn (request method path content none) (c.later k answer span)).play script).calls =
            [bearing (c.later k answer span) method path content token] ↔
          span < max (Token.lifeOf (seconds - Token.margin)) (Token.lifeOf Token.margin)) ∧
      ((∀ span, 0 ≤ span → ∀ method path content script,
        ((startedIn (request method path content none) (c.later k answer span)).play script).calls =
          [bearing (c.later k answer span) method path content token] →
        span < Token.lifeOf seconds) ↔ Token.margin ≤ seconds) := by
  simp only [← Token.keptFor_eq]
  refine ⟨fun method path content token script since seconds htoken hgranted r hr => ?_,
    fun k answer token seconds hgrants hfilled hend =>
      ⟨calls_later_iff h.sound.clock hgrants hend hfilled,
        sent_within_life_iff h.sound.clock hgrants hend hfilled⟩⟩
  refine (unexpired_of_reached h htoken hgranted hr).imp id fun ⟨hbearing, hlt⟩ =>
    ⟨hbearing, hlt, fun hlong => ?_⟩
  exact Int.lt_of_lt_of_le hlt (Int.add_le_add_left ((Token.keptFor_le_iff seconds).2 hlong) since)

/-- An answer that grants a token for five seconds. -/
def shortGrant : Answer :=
  .response 200 "\x7b\"access_token\": \"s1\", \"expires_in\": 5\x7d"

theorem grants_shortGrant : Token.Grants shortGrant (.string "s1") 5 :=
  ⟨_, [("access_token", .string "s1"), ("expires_in", .int 5)], rfl, rfl, rfl, rfl⟩

/-- A client that has got such a token, seven seconds ago. -/
def shortClient (k : Credentials) : Client :=
  (Client.ofAddress "http://idm.test").later k shortGrant (7 * Instant.perSecond)

/-- Two seconds behind the end of its life the token is sent, without asking for another one. -/
theorem service_token_lifetime_short :
    let k : Credentials := ⟨"http://am.test/token", "bridge", "s3cret"⟩
    ((startedIn (request "GET" "/openidm/info" {} none) (shortClient k)).play []).calls =
        [bearing (shortClient k) "GET" "/openidm/info" {} (.string "s1")] ∧
      Token.lifeOf 5 < 7 * Instant.perSecond := by
  intro k
  have hsent := ((service_token_lifetime (.start : Reached "http://idm.test" _ _)).2
    k shortGrant _ _ grants_shortGrant rfl (by decide +kernel)).1
  exact ⟨(hsent (7 * Instant.perSecond) "GET" "/openidm/info" {} []).2 (by decide), by decide⟩

/-- A request bears a service token behind the end of its life. -/
theorem service_token_outlives :
    ¬∀ (address : String) (c : Client) (o : Origin), Reached address c o →
      ∀ (method path : String) (content : Content) (script : List Answer) (since : Instant)
        (seconds : Int), o.requested c none script = .granted since seconds →
      ∀ r ∈ ((startedIn (request method path content none) c).play script).calls,
        (∃ k, r = Token.request k) ∨ c.now < since + Token.lifeOf seconds := by
  intro h
  let k : Credentials := ⟨"http://am.test/token", "bridge", "s3cret"⟩
  let first := Client.ofAddress "http://idm.test"
  have hreached : Reached "http://idm.test" (shortClient k)
      (Origin.absent.renewed k first shortGrant) :=
    .advance _ (.authenticate k [shortGrant] .start) (by decide +kernel)
  have hlive : (shortClient k).IsLive := by decide +kernel
  have horigin : (Origin.absent.renewed k first shortGrant).requested (shortClient k) none [] =
      .granted first.now 5 := by
    rw [Origin.requested_of_isLive hlive, Origin.renewed_of_grants grants_shortGrant]
  have hcalls :
      ((startedIn (request "GET" "/openidm/info" {} none) (shortClient k)).play []).calls =
        [bearing (shortClient k) "GET" "/openidm/info" {} (.string "s1")] :=
    (calls_later_iff (by decide +kernel) grants_shortGrant (by decide +kernel) rfl _ _ _ _ _).2
      (by decide)
  rcases h _ _ _ hreached "GET" "/openidm/info" {} [] _ _ horigin _
    (hcalls ▸ List.mem_singleton.2 rfl) with ⟨k', hk'⟩ | hlt
  · exact request_ne_bearing k' _ _ _ _ _ hk'.symm
  · exact absurd hlt (by decide +kernel)

end Backend

end ScimBridge
