import ScimBridge.Proofs.Gateway.Clients

/-!
# Changes that depend on a version

Against a backend that guards its objects by revisions no update is lost: a change that is reported
as done was accepted by the backend, every change that was accepted was applied to just the revision
that its client had read, and no two of them to the same revision of a resource
(`updates_never_lost`).

1. `World.Sound`: what is true at any time.
2. `sound_step`: a revision to which a change was applied does not become current again.
3. `sound_run`: by induction on the run.
-/

namespace ScimBridge

namespace Gateway

open Backend Relation

section

variable {σ ι : Type} [DecidableEq ι]

/-! ## What is true at any time -/

/-- The version that was shown is the revision that the object had. -/
structure Reading.Sound (b : Store σ) (s : σ) (seen : Reading) : Prop where
  exact : seen.revision = some seen.version
  quotable : Quotable seen.version
  used : b.Used s seen.subject seen.version

/-- What a client goes by is sound. -/
def Goal.Sound (b : Store σ) (s : σ) : Goal → Prop
  | .read _ => True
  | .change seen => seen.Sound b s

/-- A client stands on what is sound. -/
def Phase.Sound (d : Deployment) (b : Store σ) (s : σ) : Phase → Prop
  | .idle => True
  | .holding seen => seen.Sound b s
  | .asking goal r next => goal.Sound b s ∧ goal.Asks d (.call r next)

/-- The change is reported as done only if it was accepted. Then it was applied to the revision that
its client had read, which is not current any more. -/
structure Change.Sound (b : Store σ) (s : σ) (e : Change) : Prop where
  seen : e.seen.Sound b s
  reported (h : e.reported = true) : e.accepted = true
  exact (h : e.accepted = true) : e.revision = some e.seen.version
  spent (h : e.accepted = true) : b.current s e.seen.subject ≠ some e.seen.version

/-- Two changes that were accepted on the basis of one revision. -/
structure Change.Rivals (e e' : Change) : Prop where
  left : e.accepted = true
  right : e'.accepted = true
  subject : e.seen.subject = e'.seen.subject
  version : e.seen.version = e'.seen.version

structure World.Sound (d : Deployment) (b : Store σ) (w : World σ ι) : Prop where
  phases (i : ι) : (w.phase i).Sound d b w.store
  tried : ∀ e ∈ w.tried, e.Sound b w.store
  apart : w.tried.Pairwise fun e e' => ¬e.Rivals e'

variable {d : Deployment} {b : Store σ} {s : σ}

section

variable (hb : b.Guards d) (r : Backend.Request)

include hb

theorem Reading.Sound.later {seen : Reading} (h : seen.Sound b s) :
    seen.Sound b (b.serve s r).2 :=
  ⟨h.exact, h.quotable, hb.grows r h.used⟩

theorem Goal.Sound.later {goal : Goal} (h : goal.Sound b s) : goal.Sound b (b.serve s r).2 := by
  cases goal with
  | read subject => trivial
  | change seen => exact Reading.Sound.later hb r h

theorem Phase.Sound.later {phase : Phase} (h : phase.Sound d b s) :
    phase.Sound d b (b.serve s r).2 := by
  cases phase with
  | idle => trivial
  | holding seen => exact Reading.Sound.later hb r h
  | asking goal r' next => exact ⟨h.1.later hb r, h.2⟩

/-- A revision that was used and is not current does not become current again. -/
theorem Change.Sound.later {e : Change} (h : e.Sound b s) : e.Sound b (b.serve s r).2 where
  seen := h.seen.later hb r
  reported := h.reported
  exact := h.exact
  spent haccepted hcurrent :=
    (hb.renews r hcurrent).elim (h.spent haccepted) fun hunused => hunused h.seen.used

end

/-! ## Steps -/

/-- Before the backend is asked nothing is shown, and nothing is reported as done. -/
theorem reached_unserved {goal : Goal} {x : Handled} (hgoal : goal.Sound b s)
    (hasks : goal.Asks d x) :
    (goal.reached none false x).1.Sound d b s ∧
      ∀ e ∈ (goal.reached none false x).2, e.Sound b s ∧ e.accepted = false := by
  cases x with
  | call r next => exact ⟨⟨hgoal, hasks⟩, by rintro _ ⟨⟩⟩
  | done p =>
    cases goal with
    | read subject =>
      have hnone : versionIn p.1 = none := hasks
      simp [Goal.reached, Goal.settled, hnone, Phase.Sound]
    | change seen =>
      have hfails : isSuccess p.1 = false := hasks
      refine ⟨hgoal, ?_⟩
      rintro _ ⟨⟩
      exact ⟨⟨hgoal, by simp [hfails], by simp, by simp⟩, rfl⟩

section

variable (hb : b.Guards d) {r : Backend.Request}

include hb

/-- What a reader is shown is the current revision. -/
theorem reading_served {subject : Subject} {members : Fields Value} {version : String}
    (hreads : ReadsAt (d.url subject) r) (htells : Tells (b.serve s r).1 members)
    (hversion : ∀ revision, members.get? "_rev" = some (.string revision) → version = revision) :
    Reading.Sound b (b.serve s r).2 ⟨subject, version, b.current s subject⟩ := by
  obtain ⟨revision, hcurrent, hmember⟩ := hb.shows hreads htells
  obtain rfl := hversion revision hmember
  exact ⟨hcurrent, hb.quotable hcurrent, hb.grows r (hb.known hcurrent)⟩

/-- A change that is accepted is applied to the current revision, which is the one that was read. -/
theorem change_served {seen : Reading} {reported : Bool} (hseen : seen.Sound b s)
    (hchanges : ChangesAt (d.url seen.subject) seen.version r)
    (hreported : reported = true → ¬(b.serve s r).1.IsFailure) :
    let accepted := !decide (b.serve s r).1.IsFailure
    Change.Sound b (b.serve s r).2 ⟨seen, b.current s seen.subject, accepted, reported⟩ ∧
      (accepted = true → b.current s seen.subject = some seen.version) := by
  intro accepted
  have haccepts : accepted = true → b.current s seen.subject = some seen.version ∧
      b.current (b.serve s r).2 seen.subject ≠ some seen.version := fun haccepted =>
    hb.accepts hchanges (by simpa [accepted] using haccepted)
  refine ⟨⟨hseen.later hb r, fun h => ?_, fun h => (haccepts h).1, fun h => (haccepts h).2⟩,
    fun h => (haccepts h).1⟩
  simpa [accepted] using hreported h

/-- What comes of a request that is served is sound. -/
theorem reached_served {goal : Goal} {next : Answer → Handled} (hgoal : goal.Sound b s)
    (hasks : goal.Asks d (.call r next)) :
    let p := goal.reached (b.current s goal.subject) (!decide (b.serve s r).1.IsFailure)
      (next (b.serve s r).1)
    p.1.Sound d b (b.serve s r).2 ∧ ∀ e ∈ p.2, e.Sound b (b.serve s r).2 ∧
      (e.accepted = true → b.current s e.seen.subject = some e.seen.version) := by
  intro p
  cases goal with
  | read subject =>
    obtain ⟨hreads, hanswers⟩ := hasks
    obtain ⟨q, hnext, hversion⟩ := hanswers (b.serve s r).1
    simp only [p, hnext, Goal.reached, Goal.settled]
    cases hshown : versionIn q.1 with
    | none => exact ⟨trivial, by rintro _ ⟨⟩⟩
    | some version =>
      obtain ⟨members, htells, hrevision⟩ := hversion version hshown
      exact ⟨reading_served hb hreads htells hrevision, by rintro _ ⟨⟩⟩
  | change seen =>
    obtain ⟨hchanges, hanswers⟩ := hasks
    obtain ⟨q, hnext, hreported⟩ := hanswers (b.serve s r).1
    simp only [p, hnext, Goal.reached, Goal.settled]
    refine ⟨Reading.Sound.later hb r hgoal, ?_⟩
    rintro _ ⟨⟩
    exact change_served hb hgoal hchanges hreported

end

/-- A client gets somewhere, perhaps with a change that has no rival. -/
theorem World.Sound.moved {w : World σ ι} {s' : σ} {p : Phase × Option Change} {i : ι}
    (h : World.Sound d b { w with store := s' }) (hphase : p.1.Sound d b s')
    (htried : ∀ e ∈ p.2, e.Sound b s' ∧ ∀ e' ∈ w.tried, ¬e.Rivals e') :
    (w.moved i s' p).Sound d b where
  phases j := by
    show (Function.update w.phase i p.1 j).Sound d b s'
    by_cases hj : j = i
    · subst hj
      rwa [Function.update_self]
    · rw [Function.update_of_ne hj]
      exact h.phases j
  tried e he := by
    rcases List.mem_append.1 he with hnew | hold
    · exact (htried e (Option.mem_toList.1 hnew)).1
    · exact h.tried e hold
  apart := by
    refine List.pairwise_append.2
      ⟨?_, h.apart, fun e he => (htried e (Option.mem_toList.1 he)).2⟩
    cases p.2 <;> simp

omit [DecidableEq ι] in
theorem World.Sound.later {w : World σ ι} (hb : b.Guards d) (h : w.Sound d b)
    (r : Backend.Request) : World.Sound d b { w with store := (b.serve w.store r).2 } where
  phases i := (h.phases i).later hb r
  tried e he := (h.tried e he).later hb r
  apart := h.apart

theorem sound_step (hb : b.Guards d) {w w' : World σ ι} (h : w.Sound d b) (hstep : Step d b w w') :
    w'.Sound d b := by
  have hstart : ∀ {goal : Goal} {x : Handled} (i : ι), goal.Sound b w.store → goal.Asks d x →
      (w.moved i w.store (goal.reached none false x)).Sound d b := by
    intro goal x i hgoal hasks
    obtain ⟨hphase, htried⟩ := reached_unserved hgoal hasks
    refine World.Sound.moved h hphase fun e he => ⟨(htried e he).1, fun e' _ hrivals => ?_⟩
    exact Bool.noConfusion ((htried e he).2.symm.trans hrivals.left)
  cases hstep with
  | read hidle hg hleads hmethod => exact hstart _ trivial (asks_read hg hleads hmethod)
  | @change i seen g request verdict hholding hg hleads hchanges htag =>
    have hseen : seen.Sound b w.store := by
      have hphase := h.phases i
      rwa [hholding] at hphase
    exact hstart i hseen (asks_change hg hleads hchanges hseen.quotable htag)
  | @served i goal r next hasking =>
    have hphase := h.phases i
    rw [hasking] at hphase
    obtain ⟨hreached, htried⟩ := reached_served hb hphase.1 hphase.2
    refine World.Sound.moved (h.later hb r) hreached fun e he => ⟨(htried e he).1, ?_⟩
    -- a rival that was accepted before has spent the revision, which is current now
    intro e' he' hrivals
    refine (h.tried e' he').spent hrivals.right ?_
    rw [← hrivals.subject, ← hrivals.version]
    exact (htried e he).2 hrivals.left
  | forget hholding => exact World.Sound.moved h trivial (by rintro _ ⟨⟩)
  | outside r => exact h.later hb r

theorem sound_run (hb : b.Guards d) {w w' : World σ ι} (h : w.Sound d b)
    (hrun : ReflTransGen (Step d b) w w') : w'.Sound d b := by
  induction hrun with
  | refl => exact h
  | tail _ hstep ih => exact sound_step hb ih hstep

/-- Let a backend guard its objects by revisions, and let any number of clients read resources and
change them on condition that they have the version that was read, step by step in any order. A
change is reported as done only if the backend has accepted it. A change that was accepted was
applied to just the revision that its client had read, and no two of them were applied to the same
revision of a resource. -/
theorem updates_never_lost (d : Deployment) (b : Store σ) (hb : b.Guards d) (s : σ) (w : World σ ι)
    (hrun : ReflTransGen (Step d b) (World.begun s) w) :
    (∀ e ∈ w.tried, (e.reported = true → e.accepted = true) ∧
      (e.accepted = true →
        e.seen.revision = some e.seen.version ∧ e.revision = e.seen.revision)) ∧
    w.tried.Pairwise fun e e' => e.accepted = true → e'.accepted = true →
      ¬(e.seen.subject = e'.seen.subject ∧ e.seen.revision = e'.seen.revision) := by
  have hbegun : World.Sound d b (World.begun s : World σ ι) :=
    ⟨fun _ => trivial, fun _ he => (List.not_mem_nil he).elim, .nil⟩
  have hsound := sound_run hb hbegun hrun
  refine ⟨fun e he => ⟨(hsound.tried e he).reported, fun haccepted => ?_⟩, ?_⟩
  · have hchange := hsound.tried e he
    exact ⟨hchange.seen.exact, (hchange.exact haccepted).trans hchange.seen.exact.symm⟩
  · refine hsound.apart.imp_of_mem fun {e e'} he he' hapart hleft hright hsame => ?_
    have hrevisions := hsame.2
    rw [(hsound.tried e he).seen.exact, (hsound.tried e' he').seen.exact] at hrevisions
    exact hapart ⟨hleft, hright, hsame.1, Option.some.inj hrevisions⟩

/-! ## One user that two clients delete -/

/-- The user that a caller asks for. -/
def guardedUser : Subject := ⟨.user, "1"⟩

/-- The deployment of the gateway that validates tokens. -/
def guardedDeployment : Deployment := ⟨guardedState.client.baseUrl, guardedState.setup⟩

/-- A caller's deletion of the user, provided that its version is `a`. -/
def deletionRequest : Http.Request :=
  { userRequest with
    method := "DELETE", headers := ("If-Match", strongTag "a") :: userRequest.headers }

/-- A backend with one user, whose revision is `a`, until it is deleted. -/
def userStore : Store Bool where
  serve stored r :=
    if stored ∧ r.url = guardedDeployment.url guardedUser then
      if r.method = "GET" then (.response 200 "\x7b\"_id\":\"1\",\"_rev\":\"a\"\x7d", true)
      else if (r.header? "If-Match").bind Value.text? = some "a" then (.response 200 "", false)
      else (.response 412 "", true)
    else (.response 404 "", stored)
  current stored subject :=
    if stored ∧ guardedDeployment.url subject = guardedDeployment.url guardedUser then some "a"
    else none
  Used _ _ revision := revision = "a"

theorem userStore_current_iff {stored : Bool} {subject : Subject} {revision : String} :
    userStore.current stored subject = some revision ↔
      (stored = true ∧ guardedDeployment.url subject = guardedDeployment.url guardedUser) ∧
        "a" = revision := by
  simp only [userStore]
  split <;> simp [*]

section

variable {stored : Bool} {subject : Subject} {r : Backend.Request}

theorem serve_of_readsAt (hr : ReadsAt (guardedDeployment.url subject) r) :
    userStore.serve stored r =
      if stored ∧ guardedDeployment.url subject = guardedDeployment.url guardedUser then
        (.response 200 "\x7b\"_id\":\"1\",\"_rev\":\"a\"\x7d", true)
      else (.response 404 "", stored) := by
  simp [userStore, hr.url, hr.method]

theorem serve_of_changesAt {revision : String}
    (hr : ChangesAt (guardedDeployment.url subject) revision r) :
    userStore.serve stored r =
      if stored ∧ guardedDeployment.url subject = guardedDeployment.url guardedUser then
        if revision = "a" then (.response 200 "", false) else (.response 412 "", true)
      else (.response 404 "", stored) := by
  have hmethod : r.method ≠ "GET" := by
    intro hget
    have hchanges := hr.method
    rw [hget] at hchanges
    revert hchanges
    decide
  have htag : (r.header? "If-Match").bind Value.text? = some revision := by
    rw [hr.revision]
    rfl
  simp [userStore, hr.url, hmethod, htag]

end

theorem userStore_guards : userStore.Guards guardedDeployment where
  quotable h := by
    obtain ⟨-, rfl⟩ := userStore_current_iff.1 h
    exact ⟨by decide, by decide⟩
  known h := (userStore_current_iff.1 h).2.symm
  grows _ h := h
  renews {stored subject revision} r h := by
    obtain ⟨⟨hstored, hurl⟩, hrevision⟩ := userStore_current_iff.1 h
    refine .inl (userStore_current_iff.2 ⟨⟨?_, hurl⟩, hrevision⟩)
    cases stored with
    | true => rfl
    | false => simp [userStore] at hstored
  shows {stored subject r members} hr h := by
    rw [serve_of_readsAt hr] at h
    obtain ⟨status, text, htext, hstatus, hdocument⟩ := h
    split at htext
    · rename_i hfound
      cases htext
      obtain rfl := Value.object.inj (Except.ok.inj hdocument)
      exact ⟨"a", userStore_current_iff.2 ⟨hfound, rfl⟩, rfl⟩
    · cases htext
      exact absurd hstatus (by decide)
  accepts {stored subject revision r} hr h := by
    rw [serve_of_changesAt hr] at h ⊢
    by_cases hfound :
        stored = true ∧ guardedDeployment.url subject = guardedDeployment.url guardedUser
    · by_cases hrevision : revision = "a"
      · refine ⟨userStore_current_iff.2 ⟨hfound, hrevision.symm⟩, ?_⟩
        simp [hfound, hrevision, userStore]
      · simp [hfound, hrevision, Answer.IsFailure] at h
    · simp [hfound, Answer.IsFailure] at h

/-- What both clients have read. -/
def guardedReading : Reading := ⟨guardedUser, "a", some "a"⟩

theorem guardedState_runs : guardedDeployment.Runs guardedState := ⟨rfl, rfl⟩

theorem leads_userRequest : LeadsTo userRequest (.valid (.object [])) guardedUser :=
  ⟨_, target_of_user, route_of_user⟩

theorem route_of_deletion :
    (Incoming.mk deletionRequest ⟨"http", "localhost", "/scim/v2/Users/1", []⟩
      (.valid (.object []))).route = .ok (.resource .user "1") := rfl

theorem leads_deletionRequest : LeadsTo deletionRequest (.valid (.object [])) guardedUser := by
  have htarget : deletionRequest.target = userRequest.target := rfl
  exact ⟨_, htarget ▸ target_of_user, route_of_deletion⟩

theorem run_reading {w : World Bool Bool} {i : Bool} (hidle : w.phase i = .idle)
    (hstored : w.store = true) :
    ReflTransGen (Step guardedDeployment userStore) w
      (w.moved i true (.holding guardedReading, none)) := by
  have hversion : versionIn ((guardedState.answer userRequest (.valid (.object []))).against
      fun r => (userStore.serve w.store r).1).1 = some "a" := by
    rw [hstored]
    decide +kernel
  obtain ⟨r, hr, hrun⟩ := run_read guardedState_runs hidle leads_userRequest rfl hversion
  have hserved : (userStore.serve w.store r).2 = true := by
    rw [serve_of_readsAt hr, if_pos ⟨hstored, rfl⟩]
  have hcurrent : userStore.current w.store guardedUser = some "a" :=
    userStore_current_iff.2 ⟨⟨hstored, rfl⟩, rfl⟩
  rw [hserved, hcurrent] at hrun
  exact hrun

/-- The user is deleted where it is there. -/
theorem run_deletion {w : World Bool Bool} {i : Bool}
    (hholding : w.phase i = .holding guardedReading) :
    ∃ s' revision accepted, (w.store = true → s' = false) ∧
      ReflTransGen (Step guardedDeployment userStore) w (w.moved i s'
        (.holding guardedReading, some ⟨guardedReading, revision, accepted, w.store⟩)) := by
  have hsuccess : isSuccess ((guardedState.answer deletionRequest (.valid (.object []))).against
      fun r => (userStore.serve w.store r).1).1 = w.store := by
    cases w.store <;> decide +kernel
  have hquotable : Quotable guardedReading.version := ⟨by decide, by decide⟩
  obtain ⟨s', revision, accepted, hdeleted, hrun⟩ := run_change guardedState_runs hholding
    leads_deletionRequest trivial hquotable (.inl rfl) hsuccess
  refine ⟨s', revision, accepted, fun hstored => ?_, hrun⟩
  obtain ⟨r, hr, rfl⟩ := hdeleted hstored
  have hversion : guardedReading.version = "a" := rfl
  rw [serve_of_changesAt hr, if_pos ⟨hstored, rfl⟩, if_pos hversion]

/-- Both clients have read the user. -/
def bothHolding : World Bool Bool :=
  ((World.begun true).moved false true (.holding guardedReading, none)).moved true true
    (.holding guardedReading, none)

theorem run_bothHolding :
    ReflTransGen (Step guardedDeployment userStore) (World.begun true) bothHolding :=
  (run_reading rfl rfl).trans (run_reading rfl rfl)

/-- Two clients read the user and delete it, the second one in vain. -/
theorem deletion_done_once :
    ∃ w : World Bool Bool,
      ReflTransGen (Step guardedDeployment userStore) (World.begun true) w ∧
      w.tried.map Change.reported = [false, true] ∧
      ∀ e ∈ w.tried, (e.reported = true → e.accepted = true) ∧
        (e.accepted = true →
          e.seen.revision = some e.seen.version ∧ e.revision = e.seen.revision) := by
  obtain ⟨s, revision, accepted, hs, hfirst⟩ := run_deletion (w := bothHolding) (i := false) rfl
  obtain rfl := hs rfl
  obtain ⟨s', revision', accepted', -, hsecond⟩ := run_deletion (i := true)
    (w := bothHolding.moved false false
      (.holding guardedReading, some ⟨guardedReading, revision, accepted, true⟩)) rfl
  have hrun := (run_bothHolding.trans hfirst).trans hsecond
  exact ⟨_, hrun, rfl, (updates_never_lost _ _ userStore_guards true _ hrun).1⟩

end

end Gateway

end ScimBridge
