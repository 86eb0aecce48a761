import ScimBridge.Proofs.Gateway.Callers
import ScimBridge.Proofs.Gateway.Versions
import ScimBridge.Proofs.Service.Single

/-!
# Requests for one resource

A request for a user or a group becomes one request to the backend, or none. What a reader is shown
as the version of the resource is the revision in the backend's answer (`reads_answer`). A change
that names a version in `If-Match` depends on just this revision at the backend, and it is reported
as done only if the backend has accepted it (`changes_answer`).
-/

namespace ScimBridge

namespace Gateway

open Backend

variable {α : Type} {P : Backend.Request → Prop}

/-! ## Faults -/

/-- A fault that is answered with an error status. -/
def Fault.Refuses : Fault → Prop
  | .refused e => 400 ≤ e.status
  | _ => True

theorem Fault.Refuses.status {fault : Fault} (h : fault.Refuses) (path : String) :
    400 ≤ (fault.response path).status := by
  cases fault with
  | refused e => exact h
  | denied d => cases d <;> simp [Fault.response, Denial.status]
  | unexpected => simp [Fault.response]

theorem refuses_ofService {e : ServiceError} (h : e.Refuses) : (Fault.ofService e).Refuses := by
  cases e with
  | scim e => exact h
  | misfit => trivial

theorem refuses_callerRefusal (detail : String) : (callerRefusal detail).Refuses := by
  show (400 : Int) ≤ 401
  decide

theorem Verdict.refuses_of_fault {verdict : Verdict} {fault : Fault}
    (h : verdict.fault? = some fault) : fault.Refuses := by
  unfold Verdict.fault? at h
  split at h <;> cases h <;> first | trivial | exact refuses_callerRefusal _

namespace Incoming

variable {i : Incoming} {fault : Fault}

theorem refuses_admission {validates : Bool} (h : i.admission validates = .error fault) :
    fault.Refuses := by
  unfold Incoming.admission at h
  cases htoken : bearerToken (i.request.header "Authorization") with
  | error fault' =>
    rw [htoken] at h
    cases h
    obtain ⟨detail, rfl⟩ := bearerToken_error htoken
    exact refuses_callerRefusal detail
  | ok token =>
    rw [htoken] at h
    cases validates with
    | false => cases h
    | true =>
      cases hverdict : i.verdict.fault? with
      | none => simp [hverdict, bind, Except.bind] at h
      | some fault' =>
        obtain rfl : fault' = fault := by simpa [hverdict, bind, Except.bind] using h
        exact Verdict.refuses_of_fault hverdict

theorem refuses_content? (h : i.content? = .error fault) : fault.Refuses := by
  unfold Incoming.content? at h
  split at h
  · cases h
    trivial
  · split at h <;> cases h
    trivial

theorem refuses_document (h : i.document = .error fault) : fault.Refuses := by
  unfold Incoming.document at h
  cases hcontent : i.content? with
  | error fault' =>
    rw [hcontent] at h
    cases h
    exact refuses_content? hcontent
  | ok content =>
    rw [hcontent] at h
    cases content with
    | none =>
      cases h
      exact Int.le_refl 400
    | some v => cases h

/-- The document that is needed is the one in the body. -/
theorem document_eq_ok {body : Value} (h : i.document = .ok body) :
    i.request.document = .ok body := by
  unfold Incoming.document at h
  obtain ⟨content, hcontent, h⟩ := bind_eq_ok_iff.1 h
  cases content with
  | none => cases h
  | some v =>
    obtain rfl := Except.ok.inj h
    unfold Incoming.content? at hcontent
    split at hcontent
    · cases hcontent
    · split at hcontent
      · cases hcontent
      · cases hcontent
      · cases hcontent
      · rename_i hdocument
        cases hcontent
        exact hdocument

end Incoming

/-! ## Handling -/

section

variable {i : Incoming} {g : State} {Q : Answer → α → Prop}

theorem briefIn_caller {rest : String → Handling α}
    (hrest : ∀ t, t ≠ "" → ∀ keys, BriefIn Fault.Refuses P Q (rest t) { g with keys }) :
    BriefIn Fault.Refuses P Q (i.caller >>= rest) g := by
  obtain ⟨keys, hcaller⟩ := startedIn_caller i g
  refine .after hcaller (fun _ => Incoming.refuses_admission) fun t ht => hrest t ?_ keys
  obtain ⟨_, _, -, -, -, -, hne⟩ := bears_of_admission ht
  exact hne

theorem briefIn_settle {β : Type} {x : Except Fault β} (hx : ∀ e, x = .error e → e.Refuses)
    {rest : β → Handling α} (hrest : ∀ b, x = .ok b → BriefIn Fault.Refuses P Q (rest b) g) :
    BriefIn Fault.Refuses P Q (Handling.settle x >>= rest) g :=
  .after (startedIn_settle x g) hx hrest

theorem startedIn_base (i : Incoming) (g : State) :
    ∃ outcome, startedIn i.base g = .done (outcome, g) ∧
      ∀ fault, outcome = .error fault → fault.Refuses := by
  unfold Incoming.base
  rw [startedIn_bind, startedIn_get, Exchange.done_bind_eq]
  dsimp only
  split
  · exact ⟨_, rfl, by rintro _ ⟨⟩⟩
  · split
    · exact ⟨_, rfl, by rintro _ ⟨⟩⟩
    · refine ⟨_, rfl, ?_⟩
      rintro _ ⟨⟩
      trivial

theorem briefIn_base {rest : String → Handling α}
    (hrest : ∀ base, BriefIn Fault.Refuses P Q (rest base) g) :
    BriefIn Fault.Refuses P Q (i.base >>= rest) g := by
  obtain ⟨outcome, hbase, hfault⟩ := startedIn_base i g
  exact .after hbase hfault fun base _ => hrest base

theorem briefIn_service {op : Service.Operation α}
    (h : BriefIn ServiceError.Refuses P Q op g.client) :
    BriefIn Fault.Refuses P Q (Handling.service op) g := by
  have hfits : ∀ {Q : α → Prop} {x : Except ServiceError α}, Fits ServiceError.Refuses Q x →
      Fits Fault.Refuses Q (x.mapError Fault.ofService) := by
    intro Q x hx
    cases x with
    | ok a => exact hx
    | error e => exact refuses_ofService hx
  unfold BriefIn
  rw [startedIn_service]
  exact Exchange.Brief.bind h (fun _ hunsent => hfits hunsent)
    fun _ _ hsent => ⟨_, rfl, hfits hsent⟩

end

/-! ## One resource -/

/-- A resource, by its kind and its identifier. -/
structure Subject where
  kind : Service.Kind
  id : String

/-- The address of the backend object of a resource. -/
def Subject.url (subject : Subject) (baseUrl : String) (s : Service.Setup) : String :=
  baseUrl ++ Objects.objectPath (s.object subject.kind) subject.id

/-- A request to the backend that reads the object at an address. -/
structure ReadsAt (url : String) (r : Backend.Request) : Prop where
  method : r.method = "GET"
  url : r.url = url
  params : r.params = none

/-- A request to the backend that changes the object at an address if it has a revision. -/
structure ChangesAt (url revision : String) (r : Backend.Request) : Prop where
  method : r.method ∈ ["PUT", "PATCH", "DELETE"]
  url : r.url = url
  revision : r.header? "If-Match" = some (.string revision)

/-- A request that changes a resource: it replaces or deletes it, or patches it by at least one
operation. -/
def Changes (s : Service.Setup) (kind : Service.Kind) (request : Http.Request) : Prop :=
  match Http.Method.ofWord request.method with
  | .put | .delete => True
  | .patch => ∀ body, request.document = .ok body → s.patchOperations kind body ≠ .ok []
  | _ => False

theorem changesAt_bearing {c : Client} {method path revision : String} {content : Content}
    {bearer : Value} (hmethod : method ∈ ["PUT", "PATCH", "DELETE"])
    (hheaders : content.headers = Objects.revisionHeader (.string revision)) :
    ChangesAt (c.baseUrl ++ path) revision (bearing c method path content bearer) where
  method := hmethod
  url := rfl
  revision := by
    rw [header?_bearing_of_ne (by decide) (by decide) (by decide), hheaders]
    rfl

section

variable {i : Incoming} {g : State} {subject : Subject} {revision : String}

theorem briefIn_read (hmethod : Http.Method.ofWord i.request.method = .get) :
    BriefIn Fault.Refuses (ReadsAt (subject.url g.client.baseUrl g.setup))
      (fun answer r => ∃ image, r = reply 200 image ∧
        ∃ base, g.setup.MadeOf subject.kind base answer image)
      (i.resource subject.kind subject.id) g := by
  refine briefIn_caller fun t ht keys => .after (startedIn_get ..) (by rintro _ ⟨⟩) ?_
  rintro _ ⟨⟩
  simp only [hmethod]
  refine briefIn_base fun base => (briefIn_service
    (Service.briefIn_get ht ⟨rfl, rfl, rfl⟩)).bind fun answer image _ himage =>
      ⟨_, rfl, image, rfl, base, himage⟩

theorem briefIn_change (hchanges : Changes g.setup subject.kind i.request)
    (hrevision : i.revision = some (.string revision)) (hne : revision ≠ "") :
    BriefIn Fault.Refuses (ChangesAt (subject.url g.client.baseUrl g.setup) revision)
      (fun answer _ => ¬answer.IsFailure) (i.resource subject.kind subject.id) g := by
  have hfilled : (Value.string revision).filled = true := by simp [Value.filled, hne]
  have hoptional : Objects.optionalRevision (some (.string revision)) =
      Objects.revisionHeader (.string revision) := by
    simp [Objects.optionalRevision, Option.filter, hfilled]
  have hneeded : ((some (Value.string revision)).filter Value.filled).getD (.string "*") =
      .string revision := by
    simp [Option.filter, hfilled]
  refine briefIn_caller fun t ht keys => .after (startedIn_get ..) (by rintro _ ⟨⟩) ?_
  rintro _ ⟨⟩
  unfold Changes at hchanges
  simp only [hrevision]
  -- a replacement always names a revision, the other changes only where there is one
  split at hchanges
  · rename_i hmethod
    simp only [hmethod]
    refine briefIn_settle (fun _ => Incoming.refuses_document) fun body _ =>
      briefIn_base fun base => (briefIn_service (Service.briefIn_replace ht fun _ =>
        changesAt_bearing (by decide) ?_)).bind fun _ image _ himage =>
          ⟨_, rfl, himage.not_isFailure⟩
    rw [hneeded]
  · rename_i hmethod
    simp only [hmethod]
    exact (briefIn_service (Service.briefIn_delete ht
      (changesAt_bearing (by decide) hoptional))).bind fun _ _ _ haccepted => ⟨_, rfl, haccepted⟩
  · rename_i hmethod
    simp only [hmethod]
    exact briefIn_settle (fun _ => Incoming.refuses_document) fun body hbody =>
      briefIn_base fun base => (briefIn_service (Service.briefIn_patch ht
        (hchanges body (Incoming.document_eq_ok hbody)) fun _ =>
          changesAt_bearing (by decide) hoptional)).bind fun _ image _ himage =>
            ⟨_, rfl, himage.not_isFailure⟩
  · exact hchanges.elim

end

/-! ## Answers -/

/-- A response that reports no error. -/
def isSuccess (response : Option Http.Response) : Bool :=
  response.any fun r => decide (r.status < 400)

/-- The version that a client finds in a response that reports no error. -/
def versionIn (response : Option Http.Response) : Option String := do
  let r ← response.filter fun r => decide (r.status < 400)
  match r.body with
  | .document v => (versionOf v).bind Value.text?
  | _ => none

theorem versionIn_of_not_isSuccess {response : Option Http.Response}
    (h : isSuccess response = false) : versionIn response = none := by
  cases response with
  | none => rfl
  | some r =>
    have hstatus : ¬r.status < 400 := by simpa [isSuccess] using h
    simp [versionIn, hstatus]

theorem status_of_sent {r response : Http.Response} (h : r.sent? = some response) :
    response.status = r.status := by
  unfold Http.Response.sent? at h
  split at h
  · cases h
    rfl
  · obtain ⟨address, -, rfl⟩ := Option.map_eq_some_iff.1 h
    rfl

theorem status_shaped (i : Incoming) (outcome : Except Fault Http.Response) :
    (i.shaped outcome).status = (match outcome with
      | .ok r => r
      | .error fault => fault.response i.target.path).status := by
  unfold Incoming.shaped Http.Response.toMethod
  cases Http.Method.ofWord i.request.method <;> rfl

/-- A fault is told by an error status. -/
theorem isSuccess_of_refuses {i : Incoming} {fault : Fault} (h : fault.Refuses) :
    isSuccess (i.shaped (.error fault)).sent? = false := by
  cases hsent : (i.shaped (.error fault)).sent? with
  | none => rfl
  | some response =>
    have hstatus : 400 ≤ response.status := by
      rw [status_of_sent hsent, status_shaped]
      exact h.status _
    simpa [isSuccess] using hstatus

/-- A request whose target leads to a resource. -/
def LeadsTo (request : Http.Request) (verdict : Verdict) (subject : Subject) : Prop :=
  ∃ target, Http.Target.ofText? request.target = some target ∧
    (Incoming.mk request target verdict).route = .ok (.resource subject.kind subject.id)

section

variable {g : State} {request : Http.Request} {verdict : Verdict} {subject : Subject}

/-- Proxy headers may stop a request before it is handled. -/
theorem briefIn_checked {Q : Answer → Http.Response → Prop} {target : Http.Target} {route : Route}
    (hresource : route.IsResource)
    (h : BriefIn Fault.Refuses P Q ((Incoming.mk request target verdict).handle route) g) :
    BriefIn Fault.Refuses P Q ((Incoming.mk request target verdict).checked (.ok route)) g := by
  cases hforwarding : forwardingDenial? g.peers request with
  | none =>
    unfold BriefIn at h ⊢
    rwa [startedIn_checked hresource hforwarding]
  | some denial =>
    have hdenied : startedIn (Handling.stopAt (some (.denied denial))) g =
        .done (.error (.denied denial), g) := rfl
    refine .after (startedIn_get ..) (by rintro _ ⟨⟩) ?_
    rintro _ ⟨⟩
    rw [hforwarding]
    exact .after hdenied (by rintro _ ⟨⟩; trivial) (by rintro _ ⟨⟩)

/-- The response is an error, or it is made of the result of the handling. -/
theorem brief_answer {Q : Answer → Http.Response → Prop} {target : Http.Target} {route : Route}
    (htarget : Http.Target.ofText? request.target = some target)
    (hroute : (Incoming.mk request target verdict).route = .ok route) (hresource : route.IsResource)
    (h : BriefIn Fault.Refuses P Q ((Incoming.mk request target verdict).handle route) g) :
    (g.answer request verdict).Brief (fun p => isSuccess p.1 = false) P fun answer p =>
      isSuccess p.1 = true → ∃ r, Q answer r ∧
        p.1 = ((Incoming.mk request target verdict).shaped (.ok r)).sent? := by
  by_cases hsendable : request.isSendable = true
  · rw [answer_eq_checked hsendable htarget hroute hresource]
    refine Exchange.Brief.bind (briefIn_checked hresource h) ?_ ?_
    · rintro ⟨outcome, g'⟩ hunsent
      cases outcome with
      | ok r => exact hunsent.elim
      | error fault => exact isSuccess_of_refuses hunsent
    · rintro answer ⟨outcome, g'⟩ hsent
      refine ⟨_, rfl, fun hsuccess => ?_⟩
      cases outcome with
      | ok r => exact ⟨r, hsent, rfl⟩
      | error fault =>
        rw [isSuccess_of_refuses hsent] at hsuccess
        cases hsuccess
  · have hnone : (Http.Target.ofText? request.target).filter (fun _ => request.isSendable) =
        none := by
      simp [htarget, hsendable]
    unfold State.answer
    rw [hnone]
    rfl

/-- The version that a reader finds in the response is the revision in the backend's answer. -/
theorem reads_answer (hleads : LeadsTo request verdict subject)
    (hmethod : Http.Method.ofWord request.method = .get) :
    (g.answer request verdict).Brief (fun p => versionIn p.1 = none)
      (ReadsAt (subject.url g.client.baseUrl g.setup)) fun answer p =>
        ∀ version, versionIn p.1 = some version → ∃ members, Tells answer members ∧
          ∀ revision, members.get? "_rev" = some (.string revision) → version = revision := by
  obtain ⟨target, htarget, hroute⟩ := hleads
  refine (brief_answer htarget hroute trivial (briefIn_read hmethod)).mono
    (fun _ => versionIn_of_not_isSuccess) fun answer p hshaped version hversion => ?_
  have hsuccess : isSuccess p.1 = true := by
    by_contra hfails
    rw [versionIn_of_not_isSuccess (Bool.eq_false_iff.2 hfails)] at hversion
    cases hversion
  obtain ⟨_, ⟨image, rfl, base, members, htells, himage⟩, hresponse⟩ := hshaped hsuccess
  refine ⟨members, htells, fun revision hrevision => ?_⟩
  have hshown : versionIn p.1 = (versionOf image).bind Value.text? := by
    rw [hresponse]
    unfold Incoming.shaped Http.Response.toMethod
    rw [hmethod]
    rfl
  rw [hshown, version_of_resourceOf hrevision himage] at hversion
  exact (Option.some.inj hversion).symm

/-- A change that depends on a revision is reported as done only if the backend has accepted it for
this revision. -/
theorem changes_answer {revision : String} (hleads : LeadsTo request verdict subject)
    (hchanges : Changes g.setup subject.kind request) (hquotable : Quotable revision)
    (htag : request.header "If-Match" = strongTag revision ∨
      request.header "If-Match" = weakTag revision) :
    (g.answer request verdict).Brief (fun p => isSuccess p.1 = false)
      (ChangesAt (subject.url g.client.baseUrl g.setup) revision) fun answer p =>
        isSuccess p.1 = true → ¬answer.IsFailure := by
  obtain ⟨target, htarget, hroute⟩ := hleads
  have hrevision : (Incoming.mk request target verdict).revision = some (.string revision) := by
    have hread : revisionOf (request.header "If-Match") = some revision := by
      rcases htag with htag | htag <;> rw [htag]
      · exact revisionOf_strongTag hquotable
      · exact revisionOf_weakTag hquotable
    rw [Incoming.revision, hread, Option.map_some]
  refine (brief_answer htarget hroute trivial
    (briefIn_change hchanges hrevision hquotable.ne_empty)).mono (fun _ h => h)
      fun answer p hshaped hsuccess => ?_
  obtain ⟨_, haccepted, -⟩ := hshaped hsuccess
  exact haccepted

end

end Gateway

end ScimBridge
