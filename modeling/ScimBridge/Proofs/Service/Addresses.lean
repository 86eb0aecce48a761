import ScimBridge.Proofs.Http.Segments
import ScimBridge.Proofs.Service.Confinement

/-!
# Addresses of resources

To read, replace, patch or delete a resource, the backend is asked at an address that is the one of
the collection with the identifier behind it, as it is (`SendsTo`). This is the address of the object
with this identifier iff the identifier is plain (`asks_at_spliced_address`): other ones lead to
other objects, to other collections or to queries, although nearly all of them have an address.
-/

namespace ScimBridge

namespace Backend

variable {ε α β : Type} {url : String} {c : Client}

/-! ## Requests for one address -/

/-- A request that renews the service token of a client. -/
def Renews (c : Client) (r : Request) : Prop := ∃ k, c.credentials = some k ∧ r = Token.request k

/-- A request to an address and nothing behind it. -/
structure IsAt (url : String) (r : Request) : Prop where
  url : r.url = url
  params : r.params = none

/-- A request that a client may send for an address: to it, or for a new service token first. -/
def SentFor (url : String) (c : Client) (r : Request) : Prop := Renews c r ∨ IsAt url r

/-- An operation that sends requests for an address only. -/
def SendsTo (url : String) (c : Client) (x : ExceptT ε (StateT Client Exchange) α) : Prop :=
  (startedIn x c).Ensures (SentFor url c) fun _ => True

namespace SendsTo

variable {x : ExceptT ε (StateT Client Exchange) α}

theorem of_onlySends (h : OnlySends (SentFor url c) x) : SendsTo url c x :=
  (h c).mono fun _ _ => trivial

theorem bind (hx : SendsTo url c x) {f : α → ExceptT ε (StateT Client Exchange) β}
    (hf : ∀ a, OnlySends (SentFor url c) (f a)) : SendsTo url c (x >>= f) := by
  unfold SendsTo
  rw [startedIn_bind, Exchange.ensures_bind]
  refine hx.mono fun p _ => ?_
  obtain ⟨outcome, c'⟩ := p
  cases outcome with
  | ok a => exact (hf a c').mono fun _ _ => trivial
  | error e => trivial

theorem tryCatch (hx : SendsTo url c x) {f : ε → ExceptT ε (StateT Client Exchange) α}
    (hf : ∀ e, OnlySends (SentFor url c) (f e)) : SendsTo url c (tryCatch x f) := by
  unfold SendsTo
  rw [startedIn_tryCatch, Exchange.ensures_bind]
  refine hx.mono fun p _ => ?_
  obtain ⟨outcome, c'⟩ := p
  cases outcome with
  | ok a => trivial
  | error e => exact (hf e c').mono fun _ _ => trivial

end SendsTo

theorem sendsTo_current : SendsTo url c Token.current := by
  unfold SendsTo Token.current
  rw [startedIn_bind, startedIn_get, Exchange.done_bind_eq]
  dsimp only
  split
  · trivial
  · rename_i k _ hk
    have hrenew : OnlySends (SentFor url c) (Token.renew k) :=
      Token.onlySends_renew (.inl ⟨k, hk, rfl⟩)
    exact SendsTo.of_onlySends (hrenew.bind fun _ => Keeps.get.bind fun _ => .pure _)
  · trivial

theorem sendsTo_bearerFor (token : Option String) : SendsTo url c (bearerFor token) := by
  unfold bearerFor
  split
  · trivial
  · exact sendsTo_current

theorem sendsTo_request {content : Content} (h : content.params = none) (method path : String)
    (token : Option String) :
    SendsTo (c.baseUrl ++ path) c (request method path content token) := by
  unfold SendsTo
  rw [startedIn_request, Exchange.ensures_bind]
  refine (sendsTo_bearerFor token).mono fun p _ => ?_
  obtain ⟨outcome, c'⟩ := p
  cases outcome with
  | ok bearer => exact ⟨.inr ⟨rfl, h⟩, fun _ => trivial⟩
  | error e => trivial

namespace Objects

variable {object id : String} {token : Option String}

theorem sendsTo_namingMissing {content : Content} (h : content.params = none) (method : String) :
    SendsTo (c.baseUrl ++ objectPath object id) c
      (namingMissing object id (request method (objectPath object id) content token)) := by
  refine (sendsTo_request h _ _ _).tryCatch fun e => ?_
  cases e <;> exact .throw _

theorem sendsTo_objectRequest {content : Content} (h : content.params = none) (method : String) :
    SendsTo (c.baseUrl ++ objectPath object id) c (do
      let (_, text) ← namingMissing object id (request method (objectPath object id) content token)
      readDocument text) :=
  (sendsTo_namingMissing h method).bind fun p => onlySends_readDocument p.2

end Objects

end Backend

namespace Service

open Backend

variable {α β : Type} {url : String} {c : Client}

theorem sendsTo_ask {action missing : String} {x : Action α} (h : SendsTo url c x) :
    SendsTo url c (ask action missing x) := by
  unfold SendsTo
  rw [startedIn_ask, Exchange.ensures_bind]
  exact Exchange.Ensures.mono h fun _ _ => trivial

theorem sendsTo_settle_bind {x : Outcome α} {f : α → Operation β} (h : ∀ a, SendsTo url c (f a)) :
    SendsTo url c (settle x >>= f) := by
  cases x with
  | ok a => exact h a
  | error e => trivial

/-! ## Calls for one resource -/

/-- What is done to one resource. -/
inductive Access where
  | get
  | replace (resource : Value) (revision : Option Value)
  | patch (request : Value) (revision : Option Value)
  | delete (revision : Option Value)

/-- The call that does it to the resource with an identifier. -/
def Access.call (id : String) : Access → Call
  | .get => .get id
  | .replace resource revision => .replace id resource revision
  | .patch request revision => .patch id request revision
  | .delete revision => .delete id revision

variable (s : Setup) (kind : Kind) (c : Client) (id : String)

/-- The address of the collection of a kind. -/
def Setup.collectionUrl : String := c.baseUrl ++ Objects.collectionPath (s.object kind)

/-- The address at which a resource is asked for: its identifier stands behind the address of the
collection, as it is. -/
def Setup.splicedUrl : String := s.collectionUrl kind c ++ "/" ++ id

theorem splicedUrl_eq :
    s.splicedUrl kind c id = c.baseUrl ++ Objects.objectPath (s.object kind) id := by
  simp only [Setup.splicedUrl, Setup.collectionUrl, Objects.objectPath, String.append_assoc]

theorem sendsTo_get (caller : Caller) :
    SendsTo (s.splicedUrl kind c id) c (s.get kind id caller) := by
  rw [splicedUrl_eq]
  exact (sendsTo_ask (Objects.sendsTo_objectRequest rfl "GET")).bind fun _ => onlySends_settle _

/-- Every request that a call for a resource can come to send is for one address. -/
theorem sendsTo_answer (caller : Caller) (access : Access) :
    SendsTo (s.splicedUrl kind c id) c (s.answer kind caller (access.call id)) := by
  have hget := sendsTo_get s kind c id caller
  rw [splicedUrl_eq] at hget ⊢
  cases access with
  | get => exact hget
  | replace resource revision =>
    exact sendsTo_settle_bind fun attributes =>
      (sendsTo_ask (Objects.sendsTo_objectRequest rfl "PUT")).bind fun _ => onlySends_settle _
  | patch request revision =>
    refine sendsTo_settle_bind fun operations => ?_
    split
    · exact hget
    · exact (sendsTo_ask (Objects.sendsTo_objectRequest rfl "PATCH")).bind fun _ =>
        onlySends_settle _
  | delete revision =>
    refine (sendsTo_ask ?_).bind fun _ => .pure _
    exact (Objects.sendsTo_namingMissing rfl "DELETE").bind fun _ => .pure _

/-- With a token of the caller, a call for a resource that is not refused asks once. -/
theorem exists_sent_of_not_refuses {t : String} (ht : t ≠ "") (baseUrl : String) {access : Access}
    (h : ¬s.Refuses kind (access.call id)) (script : List Answer) :
    ∃ r, ((startedIn (s.answer kind ⟨some t, baseUrl⟩ (access.call id)) c).play script).calls =
      [r] ∧ IsAt (s.splicedUrl kind c id) r := by
  have hat : ∀ method content, content.params = none → IsAt (s.splicedUrl kind c id)
      (bearing c method (Objects.objectPath (s.object kind) id) content (.string t)) :=
    fun method content hparams => ⟨(splicedUrl_eq s kind c id).symm, hparams⟩
  obtain ⟨-, hsends⟩ := sends_of_not_refuses ht baseUrl c h script
  cases access with
  | get => exact ⟨_, hsends, hat _ _ rfl⟩
  | replace resource revision =>
    obtain ⟨attributes, request, tag, -, rfl, -, -, -, hsent⟩ := hsends
    exact ⟨_, hsent, hat _ _ rfl⟩
  | patch request revision =>
    obtain ⟨converted, -, hnone, hsome⟩ := hsends
    by_cases hempty : converted.flatten = []
    · exact ⟨_, hnone hempty, hat _ _ rfl⟩
    · exact ⟨_, hsome hempty, hat _ _ rfl⟩
  | delete revision => exact ⟨_, hsends, hat _ _ rfl⟩

/-! ## Addresses of objects -/

section

variable {collection url id other : String}

/-- The address of the object with an identifier: behind the address of its collection stands the
segment of the identifier and nothing else. -/
def Addresses (collection url id : String) : Prop :=
  ∃ segment, url = collection ++ "/" ++ segment ∧ Uri.SegmentOf segment id

theorem Addresses.unique (h : Addresses collection url id)
    (hother : Addresses collection url other) : id = other := by
  obtain ⟨segment, hurl, hsegment⟩ := h
  obtain ⟨segment', hurl', hsegment'⟩ := hother
  obtain rfl : segment = segment' := (String.append_right_inj _).1 (hurl.symm.trans hurl')
  exact hsegment.unique hsegment'

theorem exists_address (hfilled : id ≠ "") (hstays : id ∉ Uri.steps) :
    ∃ url, Addresses collection url id := by
  obtain ⟨segment, hsegment⟩ := Uri.exists_segmentOf hfilled hstays
  exact ⟨_, segment, rfl, hsegment⟩

theorem addresses_behind_iff :
    Addresses collection (collection ++ "/" ++ id) other ↔ Uri.SegmentOf id other := by
  constructor
  · rintro ⟨segment, hurl, hsegment⟩
    obtain rfl : id = segment := (String.append_right_inj _).1 hurl
    exact hsegment
  · exact fun h => ⟨id, rfl, h⟩

end

/-- A call for a resource asks the backend at one address, whatever the answers, and asks there if it
is not refused. This is the address of the object with the identifier iff the identifier is plain,
and then it is the address of no other object. Nearly every identifier has an address. -/
theorem asks_at_spliced_address (s : Setup) (kind : Kind) (id : String) (access : Access)
    (caller : Caller) (c : Client) (script : List Answer) :
    let collection := s.collectionUrl kind c
    let url := s.splicedUrl kind c id
    let sent := ((startedIn (s.answer kind caller (access.call id)) c).play script).calls
    (∀ r ∈ sent, Renews c r ∨ IsAt url r) ∧
    (∀ t, caller.token = some t → t ≠ "" → ¬s.Refuses kind (access.call id) →
      ∃ r, sent = [r] ∧ IsAt url r) ∧
    (Addresses collection url id ↔ Uri.IsPlainName id) ∧
    (∀ other, Uri.IsPlainName id → Addresses collection url other → other = id) ∧
    (id ≠ "" → id ∉ Uri.steps → ∃ url, Addresses collection url id) := by
  intro collection url sent
  have hplain : Addresses collection url id ↔ Uri.IsPlainName id :=
    addresses_behind_iff.trans Uri.segmentOf_self_iff
  refine ⟨?_, ?_, hplain, ?_, exists_address⟩
  · exact Exchange.Ensures.calls (sendsTo_answer s kind c id caller access) script
  · obtain ⟨token, baseUrl⟩ := caller
    rintro t rfl ht hrefuses
    exact exists_sent_of_not_refuses s kind c id ht baseUrl hrefuses script
  · exact fun other h hother => hother.unique (hplain.2 h)

/-- A user with a plain identifier is asked for at its own address. -/
theorem plain_identifier_addressed :
    ∃ r, ((startedIn (Setup.answer ⟨{}, .empty⟩ .user ⟨some "token", ""⟩ (Access.get.call "u1"))
      (.ofAddress usualAddress)).play []).calls = [r] ∧
      Addresses (Setup.collectionUrl ⟨{}, .empty⟩ .user (.ofAddress usualAddress)) r.url "u1" := by
  have hplain : Uri.IsPlainName "u1" :=
    ⟨by decide, Uri.forall_segmentEnds.2 ⟨by decide, by decide, by decide⟩, by decide,
      Uri.not_hasEscape_of_forall_ne (by decide)⟩
  obtain ⟨-, hasks, haddress, -⟩ := asks_at_spliced_address ⟨{}, .empty⟩ .user "u1" .get
    ⟨some "token", ""⟩ (.ofAddress usualAddress) []
  obtain ⟨r, hsent, hr⟩ := hasks "token" rfl (by decide) not_false
  refine ⟨r, hsent, ?_⟩
  rw [hr.url]
  exact haddress.2 hplain

/-- A question mark in an identifier cuts it, and an escaped character in one leads to an object with
another identifier. -/
theorem identifiers_lead_astray :
    let urls (id : String) : List String :=
      ((startedIn (Setup.answer ⟨{}, .empty⟩ .user ⟨some "token", ""⟩ (Access.get.call id))
        (.ofAddress usualAddress)).play []).calls.map fun r => r.url
    let collection := "http://idm:8080/openidm/managed/alpha_user"
    urls "u1?x" = [collection ++ "/" ++ "u1?x"] ∧
    ¬Addresses collection (collection ++ "/" ++ "u1?x") "u1?x" ∧
    urls "u%31" = [collection ++ "/" ++ "u%31"] ∧
    Addresses collection (collection ++ "/" ++ "u%31") "u1" := by
  intro urls collection
  have hurls : ∀ id, urls id = [collection ++ "/" ++ id] := by
    intro id
    have hcollection : Setup.collectionUrl ⟨{}, .empty⟩ .user (.ofAddress usualAddress) =
        collection := by decide
    have hget : ¬Setup.Refuses ⟨{}, .empty⟩ .user (Access.get.call id) := not_false
    have hsent := exists_sent_of_not_refuses ⟨{}, .empty⟩ .user (.ofAddress usualAddress) id
      (t := "token") (by decide) "" hget []
    obtain ⟨r, hcalls, hr⟩ := hsent
    show List.map _ _ = _
    rw [hcalls, List.map_singleton, hr.url, Setup.splicedUrl, hcollection]
  refine ⟨hurls "u1?x", ?_, hurls "u%31", ?_⟩
  · intro haddress
    have hsegment : Uri.SegmentOf "u1?x" "u1?x" := addresses_behind_iff.1 haddress
    exact hsegment.whole '?' (by decide) (by decide)
  · have hsegment : Uri.SegmentOf "u%31" "u1" :=
      ⟨by decide, Uri.forall_segmentEnds.2 ⟨by decide, by decide, by decide⟩, by decide, by decide⟩
    exact addresses_behind_iff.2 hsegment

end Service

end ScimBridge
