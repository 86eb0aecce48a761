import ScimBridge.Backend.Objects
import ScimBridge.Proofs.Backend.Exchange

/-!
# Bodies of requests

What a call of the managed objects is given is all that its requests carry: requests for a service
token, which may come first, and requests that read have no body (`onlySends_create` and its
neighbours).
-/

namespace ScimBridge

namespace Backend

/-- Requests whose body, if there is one, has a property. -/
def BodyMeets (Q : Value → Prop) (r : Request) : Prop := ∀ body, r.json = some body → Q body

variable {α : Type} {Q : Value → Prop} {P : Request → Prop}

theorem bodyMeets_of_none {r : Request} (h : r.json = none) : BodyMeets Q r := fun body hbody => by
  rw [h] at hbody
  cases hbody

/-! ## The service token -/

theorem onlySends_transmit {complaint : String} {request : Request} (h : P request) :
    OnlySends P (transmit complaint request) := by
  refine (Keeps.send h).bind fun answer => ?_
  cases answer with
  | response status text => exact .pure _
  | failure text => exact .throw _

theorem onlySends_readDocument (text : String) : OnlySends P (readDocument text) := by
  unfold readDocument
  cases Value.ofDocument text with
  | ok v => exact .pure v
  | error e => exact .throw _

namespace Token

theorem onlySends_fetch {c : Credentials} (h : P (request c)) : OnlySends P (fetch c) := by
  refine (onlySends_transmit h).bind fun p => ?_
  dsimp only
  split
  case' isTrue => refine (Keeps.throw _).bind fun _ => ?_
  all_goals
    refine (onlySends_readDocument p.2).bind fun v => ?_
    cases ofAnswer v with
    | ok found => exact .pure found
    | error fault => exact .throw _

theorem onlySends_store (token : Value) (span : Except TokenFault Int) :
    OnlySends P (store token span) := by
  have hset : OnlySends P (modify fun client => { client with token } : Action Unit) :=
    .modify fun _ => rfl
  refine hset.bind fun _ => Keeps.get.bind fun client => ?_
  dsimp only
  split
  · exact .modify fun _ => rfl
  · exact .throw _

theorem onlySends_renew {c : Credentials} (h : P (request c)) : OnlySends P (renew c) :=
  (onlySends_fetch h).bind fun _ => onlySends_store _ _

theorem onlySends_current (h : ∀ c, P (request c)) : OnlySends P current := by
  refine Keeps.get.bind fun client => ?_
  dsimp only
  split
  · exact .pure _
  · exact (onlySends_renew (h _)).bind fun _ => Keeps.get.bind fun _ => .pure _
  · exact .throw _

end Token

/-- Without a caller's token the service fetches its own. -/
theorem onlySends_bearerFor (h : ∀ c, P (Token.request c)) (token : Option String) :
    OnlySends P (bearerFor token) := by
  unfold bearerFor
  split
  · exact .pure _
  · exact Token.onlySends_current h

/-! ## Requests -/

theorem onlySends_request {content : Content} (h : ∀ body, content.json = some body → Q body)
    (method path : String) (token : Option String) :
    OnlySends (BodyMeets Q) (request method path content token) := by
  have hbearer : OnlySends (BodyMeets Q) (bearerFor token) :=
    onlySends_bearerFor (fun _ => bodyMeets_of_none rfl) token
  refine Keeps.get.bind fun client => hbearer.bind fun bearer =>
    Keeps.bind (onlySends_transmit ?_) fun p => ?_
  · exact h
  dsimp only
  split
  · exact (Keeps.throw _).bind fun _ => .pure _
  · exact .pure _

theorem onlySends_requestDocument {content : Content}
    (h : ∀ body, content.json = some body → Q body) (method path : String)
    (token : Option String) :
    OnlySends (BodyMeets Q) (requestDocument method path content token) :=
  (onlySends_request h method path token).bind fun p => onlySends_readDocument p.2

namespace Objects

variable {object id : String} {token : Option String}

theorem onlySends_objectRequest {content : Content}
    (h : ∀ body, content.json = some body → Q body) (method : String) :
    OnlySends (BodyMeets Q) (do
      let (_, text) ← namingMissing object id (request method (objectPath object id) content token)
      readDocument text) := by
  refine Keeps.bind ?_ fun p => onlySends_readDocument p.2
  refine (onlySends_request h _ _ _).tryCatch fun e => ?_
  cases e <;> exact .throw _

theorem onlySends_read : OnlySends (BodyMeets Q) (read object id none token) :=
  onlySends_objectRequest (fun _ h => nomatch h) "GET"

theorem onlySends_replace {body : Value} (h : Q body) (revision : Option Value) :
    OnlySends (BodyMeets Q) (replace object id body revision token) :=
  onlySends_objectRequest (fun _ hbody => Option.some.inj hbody ▸ h) "PUT"

theorem onlySends_patch {operations : Value} (h : Q operations) (revision : Option Value) :
    OnlySends (BodyMeets Q) (patch object id operations revision token) :=
  onlySends_objectRequest (fun _ hbody => Option.some.inj hbody ▸ h) "PATCH"

theorem onlySends_delete (revision : Option Value) :
    OnlySends (BodyMeets Q) (delete object id revision token) := by
  refine Keeps.bind (Keeps.tryCatch (onlySends_request ?_ _ _ _) fun e => ?_)
    fun _ => .pure _
  · exact fun _ h => nomatch h
  · cases e <;> exact .throw _

theorem onlySends_membersOf (v : Value) : OnlySends (BodyMeets Q) (membersOf v) := by
  cases v with
  | object members => exact .pure members
  | _ => exact .throw _

theorem onlySends_create {body : Value} (h : Q body) :
    OnlySends (BodyMeets Q) (create object body token) :=
  (onlySends_requestDocument (fun _ hbody => Option.some.inj hbody ▸ h) _ _ _).bind
    onlySends_membersOf

theorem onlySends_pageTotal (counted results : Value) :
    OnlySends (BodyMeets Q) (pageTotal counted results) := by
  unfold pageTotal
  split
  · exact .pure _
  · split
    · exact .pure _
    · exact .throw _

theorem onlySends_query (q : Query) : OnlySends (BodyMeets Q) (query object q token) := by
  have hget : ∀ params, OnlySends (BodyMeets Q)
      (requestDocument "GET" (collectionPath object) { params } token) := fun params =>
    onlySends_requestDocument (fun _ h => nomatch h) _ _ _
  have hoffset : OnlySends (BodyMeets Q) (offsetOf q.start) := by
    unfold offsetOf
    split
    · exact .pure _
    · exact .pure _
    · exact .throw _
  have hcount : OnlySends (BodyMeets Q) (count object q.filter token) :=
    (hget _).bind fun v => (onlySends_membersOf v).bind fun _ => .pure _
  refine hcount.bind fun counted => ?_
  split
  · exact .pure _
  · exact hoffset.bind fun offset => (hget _).bind fun v => (onlySends_membersOf v).bind
      fun members => (onlySends_pageTotal _ _).bind fun _ => .pure _

end Objects

end Backend

end ScimBridge
