import Mathlib.Logic.Relation
import ScimBridge.Proofs.Gateway.Resources

/-!
# Clients around a backend

Clients read resources, and later change them on condition that they still have the version that was
read. Between two requests to the backend a gateway touches nothing that is shared, so a run is a
sequence of steps each of which takes one client up to its next request or to its response; requests
that have nothing to do with these clients may be served at any time.

`Goal.Asks` says what a gateway asks the backend for a client, and what the response comes to.
-/

namespace ScimBridge

namespace Gateway

open Backend Relation

/-! ## Deployments -/

/-- Where the backend of a gateway is and what its service depends on. -/
structure Deployment where
  address : String
  setup : Service.Setup

namespace Deployment

/-- A gateway of a deployment. -/
structure Runs (d : Deployment) (g : State) : Prop where
  address : g.client.baseUrl = d.address
  setup : g.setup = d.setup

/-- The address of the backend object of a resource. -/
def url (d : Deployment) (subject : Subject) : String := subject.url d.address d.setup

end Deployment

/-- A backend with a store: how it serves requests, and for each resource the revision that its
object has and those that it has had. -/
structure Store (σ : Type) where
  serve : σ → Backend.Request → Answer × σ
  current : σ → Subject → Option String
  Used : σ → Subject → String → Prop

/-- A backend that guards its objects by revisions: it tells the revision of an object that it shows,
accepts a change that names a revision only if it is the current one, and gives each object that is
changed a revision that has not been used before. -/
structure Store.Guards {σ : Type} (b : Store σ) (d : Deployment) : Prop where
  quotable {s : σ} {subject : Subject} {revision : String}
    (h : b.current s subject = some revision) : Quotable revision
  known {s : σ} {subject : Subject} {revision : String}
    (h : b.current s subject = some revision) : b.Used s subject revision
  grows {s : σ} {subject : Subject} {revision : String} (r : Backend.Request)
    (h : b.Used s subject revision) : b.Used (b.serve s r).2 subject revision
  renews {s : σ} {subject : Subject} {revision : String} (r : Backend.Request)
    (h : b.current (b.serve s r).2 subject = some revision) :
    b.current s subject = some revision ∨ ¬b.Used s subject revision
  shows {s : σ} {subject : Subject} {r : Backend.Request} {members : Fields Value}
    (hr : ReadsAt (d.url subject) r) (h : Tells (b.serve s r).1 members) :
    ∃ revision, b.current s subject = some revision ∧
      members.get? "_rev" = some (.string revision)
  accepts {s : σ} {subject : Subject} {revision : String} {r : Backend.Request}
    (hr : ChangesAt (d.url subject) revision r) (h : ¬(b.serve s r).1.IsFailure) :
    b.current s subject = some revision ∧ b.current (b.serve s r).2 subject ≠ some revision

/-! ## Clients -/

/-- What a client has read of a resource: the version that it was shown. For the record, the revision
that the object had at the backend. -/
structure Reading where
  subject : Subject
  version : String
  revision : Option String

/-- What a client asks for. -/
inductive Goal where
  | read (subject : Subject)
  | change (seen : Reading)

/-- The resource that a client asks for. -/
def Goal.subject : Goal → Subject
  | .read subject => subject
  | .change seen => seen.subject

/-- What a gateway does for a client. -/
abbrev Handled := Exchange (Option Http.Response × State)

/-- Where a client stands. -/
inductive Phase where
  | idle
  | holding (seen : Reading)
  /-- The gateway is about to send a request to the backend. -/
  | asking (goal : Goal) (r : Backend.Request) (next : Answer → Handled)

/-- A change that a client has tried: what the client had read, and whether the change was reported
as done. For the record, the revision that the object had when the backend served the change, and
whether it was accepted. -/
structure Change where
  seen : Reading
  revision : Option String
  accepted : Bool
  reported : Bool

/-- Where a response takes a client, and the change that was tried. -/
def Goal.settled (revision : Option String) (accepted : Bool) (response : Option Http.Response) :
    Goal → Phase × Option Change
  | .read subject => match versionIn response with
    | some version => (.holding ⟨subject, version, revision⟩, none)
    | none => (.idle, none)
  | .change seen => (.holding seen, some ⟨seen, revision, accepted, isSuccess response⟩)

/-- Where a client gets to until the next request. -/
def Goal.reached (goal : Goal) (revision : Option String) (accepted : Bool) :
    Handled → Phase × Option Change
  | .done p => goal.settled revision accepted p.1
  | .call r next => (.asking goal r next, none)

/-- Clients around a backend, and the changes that were tried. -/
structure World (σ ι : Type) where
  store : σ
  phase : ι → Phase
  tried : List Change

section

variable {σ ι : Type} [DecidableEq ι]

/-- Nobody has asked for anything. -/
def World.begun (s : σ) : World σ ι := ⟨s, fun _ => .idle, []⟩

/-- A client gets somewhere. -/
def World.moved (w : World σ ι) (i : ι) (s : σ) (p : Phase × Option Change) : World σ ι :=
  ⟨s, Function.update w.phase i p.1, p.2.toList ++ w.tried⟩

/-- One step of a run. -/
inductive Step (d : Deployment) (b : Store σ) (w : World σ ι) : World σ ι → Prop where
  /-- A client reads a resource. -/
  | read {i : ι} {subject : Subject} {g : State} {request : Http.Request} {verdict : Verdict}
    (hidle : w.phase i = .idle) (hg : d.Runs g) (hleads : LeadsTo request verdict subject)
    (hmethod : Http.Method.ofWord request.method = .get) :
    Step d b w (w.moved i w.store
      ((Goal.read subject).reached none false (g.answer request verdict)))
  /-- A client changes a resource on condition that it has the version that was read. -/
  | change {i : ι} {seen : Reading} {g : State} {request : Http.Request} {verdict : Verdict}
    (hholding : w.phase i = .holding seen) (hg : d.Runs g)
    (hleads : LeadsTo request verdict seen.subject)
    (hchanges : Changes d.setup seen.subject.kind request)
    (htag : request.header "If-Match" = strongTag seen.version ∨
      request.header "If-Match" = weakTag seen.version) :
    Step d b w (w.moved i w.store
      ((Goal.change seen).reached none false (g.answer request verdict)))
  /-- The backend serves a request of a client. -/
  | served {i : ι} {goal : Goal} {r : Backend.Request} {next : Answer → Handled}
    (hasking : w.phase i = .asking goal r next) :
    Step d b w (w.moved i (b.serve w.store r).2
      (goal.reached (b.current w.store goal.subject) (!decide (b.serve w.store r).1.IsFailure)
        (next (b.serve w.store r).1)))
  /-- A client forgets what it has read. -/
  | forget {i : ι} {seen : Reading} (hholding : w.phase i = .holding seen) :
    Step d b w (w.moved i w.store (.idle, none))
  /-- The backend serves somebody else. -/
  | outside (r : Backend.Request) : Step d b w { w with store := (b.serve w.store r).2 }

variable {d : Deployment} {b : Store σ}

/-! ## What a gateway does for a client -/

/-- What a gateway asks the backend for a client, and what the response comes to. -/
def Goal.Asks (d : Deployment) : Goal → Handled → Prop
  | .read subject, x => x.Brief (fun p => versionIn p.1 = none) (ReadsAt (d.url subject))
      fun answer p => ∀ version, versionIn p.1 = some version → ∃ members, Tells answer members ∧
        ∀ revision, members.get? "_rev" = some (.string revision) → version = revision
  | .change seen, x => x.Brief (fun p => isSuccess p.1 = false)
      (ChangesAt (d.url seen.subject) seen.version)
      fun answer p => isSuccess p.1 = true → ¬answer.IsFailure

theorem asks_read {g : State} {request : Http.Request} {verdict : Verdict} {subject : Subject}
    (hg : d.Runs g) (hleads : LeadsTo request verdict subject)
    (hmethod : Http.Method.ofWord request.method = .get) :
    (Goal.read subject).Asks d (g.answer request verdict) := by
  unfold Goal.Asks Deployment.url
  rw [← hg.address, ← hg.setup]
  exact reads_answer hleads hmethod

theorem asks_change {g : State} {request : Http.Request} {verdict : Verdict} {seen : Reading}
    (hg : d.Runs g) (hleads : LeadsTo request verdict seen.subject)
    (hchanges : Changes d.setup seen.subject.kind request) (hquotable : Quotable seen.version)
    (htag : request.header "If-Match" = strongTag seen.version ∨
      request.header "If-Match" = weakTag seen.version) :
    (Goal.change seen).Asks d (g.answer request verdict) := by
  unfold Goal.Asks Deployment.url
  rw [← hg.address, ← hg.setup]
  exact changes_answer hleads (hg.setup ▸ hchanges) hquotable htag

/-! ## Runs of one client -/

/-- A client gets its response once the backend has served the only request for it. -/
theorem run_of_start {w : World σ ι} {i : ι} {goal : Goal} {x : Handled} {r : Backend.Request}
    {next : Answer → Handled} {p : Option Http.Response × State}
    (hstart : Step d b w (w.moved i w.store (goal.reached none false x))) (hx : x = .call r next)
    (hnext : next (b.serve w.store r).1 = .done p) :
    ∃ accepted, ReflTransGen (Step d b) w (w.moved i (b.serve w.store r).2
      (goal.settled (b.current w.store goal.subject) accepted p.1)) := by
  subst hx
  have hmoved : ∀ q, (w.moved i w.store (goal.reached none false (.call r next))).moved i
      (b.serve w.store r).2 q = w.moved i (b.serve w.store r).2 q := by
    intro q
    simp [World.moved, Goal.reached]
  have hserved : Step d b (w.moved i w.store (goal.reached none false (.call r next)))
      ((w.moved i w.store (goal.reached none false (.call r next))).moved i (b.serve w.store r).2
        (goal.reached (b.current w.store goal.subject) (!decide (b.serve w.store r).1.IsFailure)
          (next (b.serve w.store r).1))) :=
    .served (Function.update_self ..)
  rw [hmoved, hnext] at hserved
  exact ⟨_, (ReflTransGen.single hstart).tail hserved⟩

section

variable {w : World σ ι} {i : ι} {g : State} {request : Http.Request} {verdict : Verdict}
  (hg : d.Runs g)

include hg

/-- A client reads the version that the gateway finds at the backend. -/
theorem run_read {subject : Subject} {version : String} (hidle : w.phase i = .idle)
    (hleads : LeadsTo request verdict subject)
    (hmethod : Http.Method.ofWord request.method = .get)
    (hversion : versionIn ((g.answer request verdict).against
      fun r => (b.serve w.store r).1).1 = some version) :
    ∃ r, ReadsAt (d.url subject) r ∧ ReflTransGen (Step d b) w
      (w.moved i (b.serve w.store r).2
        (.holding ⟨subject, version, b.current w.store subject⟩, none)) := by
  obtain ⟨r, next, hx, hr, hnext⟩ := Exchange.Brief.exists_call
    (asks_read hg hleads hmethod) (by rw [hversion]; exact Option.some_ne_none _)
  obtain ⟨_, hrun⟩ := run_of_start (.read hidle hg hleads hmethod) hx hnext
  refine ⟨r, hr, ?_⟩
  simpa only [Goal.settled, hversion, Goal.subject] using hrun

/-- A client tries a change, and is told what the gateway finds at the backend. -/
theorem run_change {seen : Reading} {success : Bool} (hholding : w.phase i = .holding seen)
    (hleads : LeadsTo request verdict seen.subject)
    (hchanges : Changes d.setup seen.subject.kind request) (hquotable : Quotable seen.version)
    (htag : request.header "If-Match" = strongTag seen.version ∨
      request.header "If-Match" = weakTag seen.version)
    (hsuccess : isSuccess ((g.answer request verdict).against
      fun r => (b.serve w.store r).1).1 = success) :
    ∃ s' revision accepted,
      (success = true → ∃ r, ChangesAt (d.url seen.subject) seen.version r ∧
        s' = (b.serve w.store r).2) ∧
      ReflTransGen (Step d b) w
        (w.moved i s' (.holding seen, some ⟨seen, revision, accepted, success⟩)) := by
  have hstart : Step d b w _ := .change hholding hg hleads hchanges htag
  have hasks : (Goal.change seen).Asks d (g.answer request verdict) :=
    asks_change hg hleads hchanges hquotable htag
  generalize g.answer request verdict = x at hstart hasks hsuccess
  cases x with
  | done p =>
    have hfails : isSuccess p.1 = false := hasks
    have hnone : success = false := hsuccess.symm.trans hfails
    refine ⟨w.store, none, false, by simp [hnone], ?_⟩
    rw [← hsuccess]
    exact .single hstart
  | call r next =>
    obtain ⟨hr, hanswers⟩ := hasks
    obtain ⟨p, hnext, -⟩ := hanswers (b.serve w.store r).1
    obtain ⟨accepted, hrun⟩ := run_of_start hstart rfl hnext
    rw [Exchange.against, hnext] at hsuccess
    refine ⟨_, b.current w.store seen.subject, accepted, fun _ => ⟨r, hr, rfl⟩, ?_⟩
    rw [← hsuccess]
    exact hrun

end

end

end Gateway

end ScimBridge
