import ScimBridge.Backend.Objects
import ScimBridge.Proofs.Backend.Exchange

/-!
# Requests with the caller's token

Every call of the managed objects with a token sends the requests that it stands for, with that
token, and leaves the client as it is: one request to read, create, replace, patch or delete an
object (`startedIn_create` and its neighbours), and to query objects one request for the total and,
if that succeeds and a page is asked for, one for the page (`startedIn_query`).
-/

namespace ScimBridge

namespace Backend

variable {α : Type}

/-- A request of a client with a bearer token. -/
def bearing (c : Client) (method path : String) (content : Content) (bearer : Value) : Request where
  method := method
  url := c.baseUrl ++ path
  params := content.params
  json := content.json
  headers := some (bearerHeaders bearer content.headers)

/-- A header of a request. -/
def Request.header? (r : Request) (name : String) : Option Value :=
  r.headers.bind fun headers => headers.get? name

/-- A parameter among those of a request. -/
def paramOf (params : Option Value) (name : String) : Option Value :=
  params.bind fun v => v.get? name

theorem header?_bearing_of_ne {c : Client} {method path : String} {content : Content}
    {bearer : Value} {name : String} (hauthorization : name ≠ "Authorization")
    (hversion : name ≠ "Accept-API-Version") (haccept : name ≠ "Accept") :
    (bearing c method path content bearer).header? name = content.headers.get? name := by
  simp only [bearing, Request.header?, Option.bind_some, bearerHeaders, Fields.putNew]
  split
  · rw [Fields.get?_put_of_ne _ _ hversion, Fields.get?_put_of_ne _ _ hauthorization]
  · rw [Fields.get?_put_of_ne _ _ haccept, Fields.get?_put_of_ne _ _ hversion,
      Fields.get?_put_of_ne _ _ hauthorization]

/-- The answer to a request, if it reports no error. -/
def received (url : String) : Answer → Except BackendError (Int × String)
  | .response status text =>
    if 400 ≤ status then .error (.api status url text) else .ok (status, text)
  | .failure text => .error (.api 0 url ("Request failed: " ++ text))

theorem received_eq_ok {url : String} {answer : Answer} {p : Int × String}
    (h : received url answer = .ok p) : answer = .response p.1 p.2 ∧ p.1 < 400 := by
  unfold received at h
  split at h
  · split at h
    · cases h
    · rename_i hstatus
      cases h
      exact ⟨rfl, Int.not_le.1 hstatus⟩
  · cases h

/-- A request gets a bearer token and is sent once. -/
theorem startedIn_request (method path : String) (content : Content) (token : Option String)
    (c : Client) :
    startedIn (request method path content token) c =
      (startedIn (bearerFor token) c >>= fun p => match p.1 with
        | .ok bearer => .once (bearing c method path content bearer) fun answer =>
          (received (c.baseUrl ++ path) answer, p.2)
        | .error e => .done (.error e, p.2)) := by
  unfold request transmit
  simp only [startedIn_bind, startedIn_get, Exchange.done_bind_eq, startedIn_send, Exchange.once,
    Exchange.call_bind_eq]
  refine congrArg (startedIn (bearerFor token) c >>= ·) (funext fun p => ?_)
  obtain ⟨found, s⟩ := p
  cases found with
  | error e => rfl
  | ok bearer =>
    refine congrArg (Exchange.call _) (funext fun answer => ?_)
    cases answer with
    | failure text => rfl
    | response status text => by_cases h : 400 ≤ status <;> simp [received, h]

section

variable {t : String} (ht : t ≠ "")

include ht

theorem startedIn_bearerFor (c : Client) :
    startedIn (bearerFor (some t)) c = .done (.ok (.string t), c) := by
  have hfilled : filledText? (some t) = some t := by simp [filledText?, Option.filter_some, ht]
  rw [bearerFor, hfilled]
  rfl

theorem startedIn_request_caller (method path : String) (content : Content) (c : Client) :
    startedIn (request method path content (some t)) c =
      .once (bearing c method path content (.string t)) fun answer =>
        (received (c.baseUrl ++ path) answer, c) := by
  rw [startedIn_request, startedIn_bearerFor ht]
  rfl

end

/-! ## Documents in answers -/

/-- The value of a document in an answer. -/
def documentIn (text : String) : Except BackendError Value :=
  match Value.ofDocument text with
  | .ok v => .ok v
  | .error _ => .error (.unreadable (Document.complaint text))

theorem startedIn_readDocument (text : String) (c : Client) :
    startedIn (readDocument text) c = .done (documentIn text, c) := by
  unfold readDocument documentIn
  cases Value.ofDocument text <;> rfl

/-- The members of a document. -/
def membersIn : Value → Except BackendError (Fields Value)
  | .object members => .ok members
  | _ => .error .misfit

theorem startedIn_membersOf (v : Value) (c : Client) :
    startedIn (Objects.membersOf v) c = .done (membersIn v, c) := by
  cases v <;> rfl

/-- The document in the answer to a request that reports no error. -/
def documentReceived (url : String) (answer : Answer) : Except BackendError Value :=
  (received url answer).bind fun p => documentIn p.2

/-- The members of the document in the answer to a request that reports no error. -/
def membersReceived (url : String) (answer : Answer) : Except BackendError (Fields Value) :=
  (documentReceived url answer).bind membersIn

/-! ## Calls of managed objects -/

namespace Objects

/-- An error in the name of an object that is not there. -/
def naming (object id : String) : BackendError → BackendError
  | .api status endpoint text =>
    if status = 404 then .missing object id else .api status endpoint text
  | e => e

theorem startedIn_namingMissing {object id : String} {action : Action α} {c : Client}
    {r : Request} {f : Answer → Except BackendError α}
    (h : startedIn action c = .once r fun answer => (f answer, c)) :
    startedIn (namingMissing object id action) c =
      .once r fun answer => ((f answer).mapError (naming object id), c) := by
  refine startedIn_tryCatch_once h fun e => ?_
  cases e with
  | api status endpoint text =>
    by_cases hs : status = 404 <;> simp [naming, hs]
  | _ => rfl

/-- The request for the number of objects that meet a filter. -/
def countRequest (c : Client) (object : String) (filter : Value) (t : String) : Request :=
  bearing c "GET" (collectionPath object)
    { params := some (.object
        [filterParam filter, ("_countOnly", .string "true"), exactParam]) } (.string t)

/-- The request for a page of the objects that meet a filter. -/
def pageRequest (c : Client) (object : String) (filter : Value) (offset count : Int) (t : String) :
    Request :=
  bearing c "GET" (collectionPath object)
    { params := some (.object
        [filterParam filter, ("_pagedResultsOffset", .int offset), ("_pageSize", .int count),
         exactParam]) } (.string t)

/-- The request for an object. -/
def readRequest (c : Client) (object id : String) (t : String) : Request :=
  bearing c "GET" (objectPath object id) {} (.string t)

/-- The request that creates an object. -/
def createRequest (c : Client) (object : String) (body : Value) (t : String) : Request :=
  bearing c "POST" (collectionPath object)
    { json := some body, params := some (.object [("_action", .string "create")]) } (.string t)

/-- The request that replaces an object. -/
def replaceRequest (c : Client) (object id : String) (body : Value) (revision : Option Value)
    (t : String) : Request :=
  bearing c "PUT" (objectPath object id)
    { json := some body
      headers := revisionHeader ((revision.filter Value.filled).getD (.string "*")) } (.string t)

/-- The revision that a replacement depends on: the given one, if it is filled in, else any. -/
theorem header?_replaceRequest (c : Client) (object id : String) (body : Value)
    (revision : Option Value) (t : String) :
    ∃ tag, (replaceRequest c object id body revision t).header? "If-Match" = some tag ∧
      tag.filled = true ∧ tag = (revision.filter Value.filled).getD (.string "*") := by
  refine ⟨_, header?_bearing_of_ne (by decide) (by decide) (by decide), ?_, rfl⟩
  cases h : revision.filter Value.filled with
  | none => rfl
  | some tag => exact (Option.filter_eq_some_iff.1 h).2

/-- The request that patches an object. -/
def patchRequest (c : Client) (object id : String) (operations : Value) (revision : Option Value)
    (t : String) : Request :=
  bearing c "PATCH" (objectPath object id)
    { json := some operations, headers := optionalRevision revision } (.string t)

/-- The request that deletes an object. -/
def deleteRequest (c : Client) (object id : String) (revision : Option Value) (t : String) :
    Request :=
  bearing c "DELETE" (objectPath object id) { headers := optionalRevision revision } (.string t)

section

variable {t : String} (ht : t ≠ "") (c : Client) (object id : String)

include ht

theorem startedIn_requestDocument (method path : String) (content : Content) :
    startedIn (requestDocument method path content (some t)) c =
      .once (bearing c method path content (.string t)) fun answer =>
        (documentReceived (c.baseUrl ++ path) answer, c) :=
  startedIn_bind_once (startedIn_request_caller ht method path content c) fun p =>
    startedIn_readDocument p.2 c

theorem startedIn_create (body : Value) :
    startedIn (create object body (some t)) c =
      .once (createRequest c object body t) fun answer =>
        (membersReceived (c.baseUrl ++ collectionPath object) answer, c) :=
  startedIn_bind_once (startedIn_requestDocument ht c _ _ _) fun v => startedIn_membersOf v c

/-- What comes of a request for one object. -/
def objectReceived (c : Client) (object id : String) (answer : Answer) :
    Except BackendError Value :=
  ((received (c.baseUrl ++ objectPath object id) answer).mapError (naming object id)).bind
    fun p => documentIn p.2

theorem startedIn_objectRequest (method : String) (content : Content) :
    startedIn (do
        let (_, text) ← namingMissing object id
          (request method (objectPath object id) content (some t))
        readDocument text) c =
      .once (bearing c method (objectPath object id) content (.string t)) fun answer =>
        (objectReceived c object id answer, c) :=
  startedIn_bind_once (startedIn_namingMissing (startedIn_request_caller ht _ _ _ c)) fun p =>
    startedIn_readDocument p.2 c

theorem startedIn_read :
    startedIn (read object id none (some t)) c =
      .once (readRequest c object id t) fun answer => (objectReceived c object id answer, c) :=
  startedIn_objectRequest ht c object id "GET" {}

theorem startedIn_replace (body : Value) (revision : Option Value) :
    startedIn (replace object id body revision (some t)) c =
      .once (replaceRequest c object id body revision t) fun answer =>
        (objectReceived c object id answer, c) :=
  startedIn_objectRequest ht c object id "PUT" _

theorem startedIn_patch (operations : Value) (revision : Option Value) :
    startedIn (patch object id operations revision (some t)) c =
      .once (patchRequest c object id operations revision t) fun answer =>
        (objectReceived c object id answer, c) :=
  startedIn_objectRequest ht c object id "PATCH" _

theorem startedIn_delete (revision : Option Value) :
    startedIn (delete object id revision (some t)) c =
      .once (deleteRequest c object id revision t) fun answer =>
        (((received (c.baseUrl ++ objectPath object id) answer).mapError (naming object id)).map
          fun _ => (), c) := by
  refine startedIn_bind_once (startedIn_namingMissing (startedIn_request_caller ht _ _ _ c))
    fun p => ?_
  rfl

/-- The total that an answer to the request for it gives. -/
def totalReceived (c : Client) (object : String) (answer : Answer) : Except BackendError Value :=
  (membersReceived (c.baseUrl ++ collectionPath object) answer).map totalOf

theorem startedIn_count (filter : Value) :
    startedIn (count object filter (some t)) c =
      .once (countRequest c object filter t) fun answer => (totalReceived c object answer, c) := by
  have hmembers : ∀ v, startedIn (do return totalOf (← membersOf v)) c =
      .done ((membersIn v).map totalOf, c) := fun v => by cases v <;> rfl
  rw [count, startedIn_bind_once (startedIn_requestDocument ht c _ _ _) hmembers]
  refine congrArg (Exchange.once _) (funext fun answer => ?_)
  unfold totalReceived membersReceived
  cases documentReceived (c.baseUrl ++ collectionPath object) answer <;> rfl

/-- An answer that gives a total: it reports no error, and its document is an object. -/
def GivesTotal : Answer → Prop
  | .response status text =>
    status < 400 ∧ ∃ members, Value.ofDocument text = .ok (.object members)
  | .failure _ => False

omit ht in
theorem totalReceived_eq_ok_iff {answer : Answer} :
    (∃ total, totalReceived c object answer = .ok total) ↔ GivesTotal answer := by
  unfold totalReceived membersReceived documentReceived GivesTotal
  cases answer with
  | failure text => simp [received, Except.bind, Except.map]
  | response status text =>
    by_cases hstatus : 400 ≤ status
    · simp [received, hstatus, Except.bind, Except.map, Int.not_lt.2 hstatus]
    · cases hdocument : Value.ofDocument text with
      | error e => simp [received, hstatus, documentIn, hdocument, Except.bind, Except.map]
      | ok v =>
        cases v <;>
          simp [received, hstatus, documentIn, hdocument, membersIn, Except.bind, Except.map,
            Int.not_le.1 hstatus]

omit ht in
/-- Numbers are compared by what they measure. -/
theorem int_beq_zero (n : Int) : (Value.int n == .int 0) = decide (n = 0) := by
  change Value.same _ _ = _
  simp [Value.same, Value.whole?, Bool.beq_eq_decide_eq]

/-- A total that an answer with results has: the one that was counted, unless it is zero. -/
def totalIn (counted results : Value) : Except BackendError Value :=
  if counted.filled then .ok counted
  else match sizeOf? results with
    | some n => .ok (.int n)
    | none => .error .misfit

omit ht in
theorem startedIn_pageTotal (counted results : Value) :
    startedIn (pageTotal counted results) c = .done (totalIn counted results, c) := by
  unfold pageTotal totalIn
  cases counted.filled
  · cases sizeOf? results <;> rfl
  · rfl

/-- The page that the members of an answer give. -/
def pageIn (counted : Value) (members : Fields Value) : Except BackendError Page :=
  let results := (Value.filled? members "result").getD (.array [])
  (totalIn counted results).map fun total => ⟨total, results⟩

/-- The page that an answer to the request for it gives. -/
def pageReceived (c : Client) (object : String) (counted : Value) (answer : Answer) :
    Except BackendError Page :=
  (membersReceived (c.baseUrl ++ collectionPath object) answer).bind (pageIn counted)

/-- The page is asked for iff it has a size and the total was given. -/
theorem startedIn_query (filter : Value) (start size : Int) :
    startedIn (query object { filter, start := .int start, count := .int size } (some t)) c =
      .call (countRequest c object filter t) fun answer =>
        match totalReceived c object answer with
        | .error e => .done (.error e, c)
        | .ok counted =>
          if size = 0 then .done (.ok ⟨counted, .array []⟩, c)
          else .once (pageRequest c object filter (max start 1 - 1) size t) fun answer =>
            (pageReceived c object counted answer, c) := by
  have hsize := int_beq_zero size
  have hmembers : ∀ counted v, startedIn (do
      let results := (Value.filled? (← membersOf v) "result").getD (.array [])
      return (⟨← pageTotal counted results, results⟩ : Page)) c =
        .done ((membersIn v).bind (pageIn counted), c) := fun counted v => by
    rw [startedIn_bind, startedIn_membersOf]
    cases membersIn v with
    | error e => rfl
    | ok members =>
      simp only [Exchange.done_bind_eq, startedIn_bind, startedIn_pageTotal]
      unfold Except.bind pageIn
      dsimp only
      cases totalIn counted ((Value.filled? members "result").getD (.array [])) <;> rfl
  rw [query, startedIn_bind, startedIn_count ht]
  refine congrArg (Exchange.call _) (funext fun answer => ?_)
  dsimp only [Exchange.bind]
  cases totalReceived c object answer with
  | error e => rfl
  | ok counted =>
    dsimp only
    rw [hsize]
    by_cases h : size = 0
    · simp [h]
    · simp only [h, decide_false, Bool.false_eq_true, if_false, offsetOf, Value.whole?, pure_bind]
      rw [startedIn_bind_once (startedIn_requestDocument ht c _ _ _) (hmembers counted)]
      refine congrArg (Exchange.once _) (funext fun answer => ?_)
      unfold pageReceived membersReceived
      cases documentReceived (c.baseUrl ++ collectionPath object) answer <;> rfl

end

end Objects

end Backend

end ScimBridge
