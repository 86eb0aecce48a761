import ScimBridge.Proofs.Backend.Brief
import ScimBridge.Proofs.Backend.Pairs
import ScimBridge.Proofs.Service.Requests

/-!
# Calls for one resource

To read, replace, patch or delete a resource takes one request at most, and a call of this kind
either fails by an error with an error status, or what the backend answered reports none
(`briefIn_get` and its neighbours). A resource that is answered is made of the object in the answer.
-/

namespace ScimBridge

/-- An error of the service that is told by an error status. -/
def ServiceError.Refuses : ServiceError → Prop
  | .scim e => 400 ≤ e.status
  | .misfit => True

namespace Service

open Backend

/-! ## Errors -/

section

variable {s : Setup} {kind : Kind} {e : ServiceError}

theorem refuses_ofBackendError (action missing : String) (fault : BackendError) :
    (ofBackendError action missing fault).Refuses := by
  cases fault with
  | api status endpoint text =>
    have hstatus : 400 ≤ (ScimError.ofBackendStatus status action).status := by
      unfold ScimError.ofBackendStatus
      by_cases hmissing : status = 404
      · simp [hmissing]
      by_cases hconflict : status = 409
      · simp [hconflict]
      by_cases hrequest : 400 ≤ status ∧ status < 500
      · simp [hmissing, hconflict, hrequest]
      · simp [hmissing, hconflict, hrequest]
    exact hstatus
  | missing object id =>
    show (400 : Int) ≤ 404
    decide
  | token fault => trivial
  | unreadable complaint => trivial
  | misfit => trivial

theorem refuses_attributesOf {resource : Value} (h : s.attributesOf kind resource = .error e) :
    e.Refuses := by
  have hbad : ∀ {detail : String} {scimType : Option String},
      (refuse 400 detail scimType : Outcome (Fields Value)) = .error e → e.Refuses := by
    rintro _ _ ⟨⟩
    exact Int.le_refl 400
  unfold Setup.attributesOf at h
  split at h
  · split at h
    · exact hbad h
    · split at h
      · exact hbad h
      · cases kind <;> cases h
  · exact hbad h

theorem refuses_patchOperations {request : Value} (h : s.patchOperations kind request = .error e) :
    e.Refuses := by
  unfold Setup.patchOperations at h
  split at h
  · cases h
  · cases h
    exact Int.le_refl 400

theorem refuses_resourceOf {baseUrl : String} {object : Value}
    (h : s.resourceOf kind baseUrl object = .error e) : e.Refuses := by
  unfold Setup.resourceOf at h
  split at h
  · dsimp only at h
    split at h
    · cases h
    · cases h
      trivial
  · cases h
    trivial

end

/-! ## Answers -/

section

variable {c : Client} {object id : String} {answer : Answer}

theorem not_isFailure_of_received {url : String} {p : Int × String}
    (h : received url answer = .ok p) : ¬answer.IsFailure := by
  obtain ⟨rfl, hstatus⟩ := received_eq_ok h
  exact Int.not_le.2 hstatus

theorem not_isFailure_of_tells {members : Fields Value} (h : Tells answer members) :
    ¬answer.IsFailure := by
  obtain ⟨status, text, rfl, hstatus, -⟩ := h
  exact Int.not_le.2 hstatus

/-- A resource that is made of the object in an answer. -/
def Setup.MadeOf (s : Setup) (kind : Kind) (baseUrl : String) (answer : Answer) (image : Value) :
    Prop :=
  ∃ members, Tells answer members ∧ s.resourceOf kind baseUrl (.object members) = .ok image

theorem madeOf_of_received {s : Setup} {kind : Kind} {baseUrl : String} {v image : Value}
    (hreceived : Objects.objectReceived c object id answer = .ok v)
    (himage : s.resourceOf kind baseUrl v = .ok image) : s.MadeOf kind baseUrl answer image := by
  obtain ⟨p, hp, hdocument⟩ := bind_eq_ok_iff.1 hreceived
  obtain ⟨rfl, hstatus⟩ := received_eq_ok (mapError_eq_ok_iff.1 hp)
  obtain ⟨members, rfl⟩ : ∃ members, v = .object members := by
    cases v <;> first | exact ⟨_, rfl⟩ | cases himage
  refine ⟨members, ⟨_, _, rfl, hstatus, ?_⟩, himage⟩
  unfold documentIn at hdocument
  split at hdocument
  · rename_i h
    rw [h, Except.ok.inj hdocument]
  · cases hdocument

theorem Setup.MadeOf.not_isFailure {s : Setup} {kind : Kind} {baseUrl : String} {image : Value}
    (h : s.MadeOf kind baseUrl answer image) : ¬answer.IsFailure := by
  obtain ⟨members, htells, -⟩ := h
  exact not_isFailure_of_tells htells

end

/-! ## Calls -/

section

variable {α : Type} {c : Client} {r : Request} {P : Request → Prop} {Q : Answer → α → Prop}

theorem briefIn_ask {action missing : String} {x : Action α}
    {f : Answer → Except BackendError α}
    (h : startedIn x c = .once r fun answer => (f answer, c)) (hP : P r)
    (hf : ∀ answer a, f answer = .ok a → Q answer a) :
    BriefIn ServiceError.Refuses P Q (ask action missing x) c := by
  have hasks : startedIn (ask action missing x) c =
      .once r fun answer => ((f answer).mapError (ofBackendError action missing), c) := by
    rw [startedIn_ask, h]
    rfl
  refine .of_once hasks hP fun answer => ?_
  cases hanswer : f answer with
  | ok a => exact hf answer a hanswer
  | error e => exact refuses_ofBackendError action missing e

theorem briefIn_settle_bind {β : Type} {x : Outcome β} (hx : ∀ e, x = .error e → e.Refuses)
    {f : β → Operation α} (hf : ∀ b, x = .ok b → BriefIn ServiceError.Refuses P Q (f b) c) :
    BriefIn ServiceError.Refuses P Q (settle x >>= f) c :=
  .after (startedIn_settle x c) hx hf

variable {s : Setup} {kind : Kind} {object id : String}

theorem briefIn_resource (action missing baseUrl : String) {x : Action Value}
    (h : startedIn x c = .once r fun answer => (Objects.objectReceived c object id answer, c))
    (hP : P r) :
    BriefIn ServiceError.Refuses P (s.MadeOf kind baseUrl)
      (ask action missing x >>= fun v => settle (s.resourceOf kind baseUrl v)) c := by
  refine (briefIn_ask (Q := fun answer v => Objects.objectReceived c object id answer = .ok v)
    h hP fun _ _ hreceived => hreceived).bind fun answer v c' hreceived =>
      ⟨_, startedIn_settle _ c', ?_⟩
  cases himage : s.resourceOf kind baseUrl v with
  | ok image => exact madeOf_of_received hreceived himage
  | error e => exact refuses_resourceOf himage

end

section

variable {s : Setup} {kind : Kind} {id t baseUrl : String} {c : Client} {P : Request → Prop}
  (ht : t ≠ "")

include ht

theorem briefIn_get (hP : P (Objects.readRequest c (s.object kind) id t)) :
    BriefIn ServiceError.Refuses P (s.MadeOf kind baseUrl) (s.get kind id ⟨some t, baseUrl⟩) c :=
  briefIn_resource _ _ _ (Objects.startedIn_read ht c _ id) hP

theorem briefIn_replace {resource : Value} {revision : Option Value}
    (hP : ∀ body, P (Objects.replaceRequest c (s.object kind) id body revision t)) :
    BriefIn ServiceError.Refuses P (s.MadeOf kind baseUrl)
      (s.replace kind id resource revision ⟨some t, baseUrl⟩) c :=
  briefIn_settle_bind (fun _ => refuses_attributesOf) fun _ _ =>
    briefIn_resource _ _ _ (Objects.startedIn_replace ht c _ id _ revision) (hP _)

/-- A patch request that comes to some operation. -/
theorem briefIn_patch {request : Value} {revision : Option Value}
    (hsome : s.patchOperations kind request ≠ .ok [])
    (hP : ∀ operations, P (Objects.patchRequest c (s.object kind) id operations revision t)) :
    BriefIn ServiceError.Refuses P (s.MadeOf kind baseUrl)
      (s.patch kind id request revision ⟨some t, baseUrl⟩) c := by
  refine briefIn_settle_bind (fun _ => refuses_patchOperations) fun operations hoperations => ?_
  have hne : ¬operations.isEmpty = true := by
    intro hempty
    rw [List.isEmpty_iff.1 hempty] at hoperations
    exact hsome hoperations
  rw [if_neg hne]
  exact briefIn_resource _ _ _ (Objects.startedIn_patch ht c _ id _ revision) (hP _)

theorem briefIn_delete {revision : Option Value}
    (hP : P (Objects.deleteRequest c (s.object kind) id revision t)) :
    BriefIn ServiceError.Refuses P (fun answer _ => ¬answer.IsFailure)
      (s.delete kind id revision ⟨some t, baseUrl⟩) c := by
  refine briefIn_ask (Objects.startedIn_delete ht c _ id revision) hP fun answer a h => ?_
  obtain ⟨p, hp, -⟩ := map_eq_ok_iff.1 h
  exact not_isFailure_of_received (mapError_eq_ok_iff.1 hp)

end

end Service

end ScimBridge
