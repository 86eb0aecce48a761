import ScimBridge.Proofs.Backend.Requests
import ScimBridge.Proofs.Patch.Entries
import ScimBridge.Service.Call

/-!
# What the service asks the backend

A call is judged before the backend is asked. One that the service refuses sends nothing; any other
one sends exactly the requests that it stands for (`perform_refuses_or_sends`): one request to read,
create, replace, patch or delete a resource, and to list resources one for the total and at most one
for the page.
-/

namespace ScimBridge

namespace Service

/-- A page begins with the first resource at the earliest. -/
theorem one_le_start {query : Fields Value} {page : Paging.Page}
    (h : Paging.Page.ofQuery query = .ok page) : 1 ≤ page.start := by
  obtain ⟨start, -, h⟩ := bind_eq_ok_iff.1 h
  obtain ⟨count, -, h⟩ := bind_eq_ok_iff.1 h
  cases h
  exact Int.le_max_left 1 start

open Backend Backend.Exchange

variable {α β : Type}

/-! ## Steps of an operation -/

@[simp] theorem startedIn_settle (x : Outcome α) (c : Client) :
    startedIn (settle x) c = .done (x, c) := rfl

theorem startedIn_settle_bind {x : Outcome α} {a : α} (h : x = .ok a) (f : α → Operation β)
    (c : Client) : startedIn (settle x >>= f) c = startedIn (f a) c := by
  subst h
  rfl

theorem startedIn_settle_fails {x : Outcome α} {e : ServiceError} (h : x = .error e)
    (f : α → Operation β) (c : Client) :
    startedIn (settle x >>= f) c = .done (.error e, c) := by
  subst h
  rfl

theorem settles_settle (x : Outcome α) (c : Client) : Settles (settle x) c := ⟨x, rfl⟩

theorem startedIn_ask (action missing : String) (x : Action α) (c : Client) :
    startedIn (ask action missing x) c = (startedIn x c >>= fun p =>
      .done (p.1.mapError (ofBackendError action missing), p.2)) := by
  refine congrArg (startedIn x c >>= ·) (funext fun p => ?_)
  obtain ⟨outcome, c'⟩ := p
  cases outcome <;> rfl

/-- To ask the backend once is to send one request. -/
theorem asksOnce_ask {action missing : String} {x : Action α} {c : Client} {request : Request}
    {f : Answer → Except BackendError α}
    (h : startedIn x c = .once request fun answer => (f answer, c)) :
    AsksOnce (ask action missing x) c request :=
  ⟨_, by rw [startedIn_ask, h]; rfl⟩

theorem asksOnce_settle_bind {x : Outcome α} {a : α} (h : x = .ok a) {f : α → Operation β}
    {c : Client} {request : Request} (hf : AsksOnce (f a) c request) :
    AsksOnce (settle x >>= f) c request := by
  subst h
  exact hf

variable (s : Setup) (kind : Kind)

/-! ## Refused calls -/

/-- A whole resource of a kind: it names the schema and has the attribute that is needed. -/
def IsWhole (resource : Value) : Prop :=
  ∃ members, resource = .object members ∧ namesSchema members kind.schema = true ∧
    hasText members kind.required = true

theorem attributesOf_eq_ok_iff {resource : Value} :
    (∃ attributes, s.attributesOf kind resource = .ok attributes) ↔ IsWhole kind resource := by
  unfold Setup.attributesOf IsWhole
  cases resource with
  | object members =>
    simp only [Value.object.injEq, exists_eq_left']
    cases namesSchema members kind.schema
    · simp [refuse]
    · cases hasText members kind.required
      · simp [refuse]
      · cases kind <;> simp
  | _ => simp [refuse]

/-- The text of a filter in a query. -/
def filterOf (query : Fields Value) : Value := (query.get? "filter").getD .null

/-- The calls that the service refuses for what they say: the page or the filter of a list cannot
be read, a resource is not whole, or something in a patch request cannot be converted. -/
def Setup.Refuses : Call → Prop
  | .list query => (∃ e, Paging.Page.ofQuery query = .error e) ∨
      ∃ e, s.translateFilter kind (filterOf query) = .error e
  | .create resource => ¬IsWhole kind resource
  | .replace _ resource _ => ¬IsWhole kind resource
  | .patch _ request _ => (s.converter kind).Stops request
  | .translate filter => ∃ e, s.translateFilter kind filter = .error e
  | .get _ => False
  | .delete _ _ => False

/-! ## Requests of calls -/

/-- The requests that a call sends, given the answers. -/
def Setup.Sends (c : Client) (t : String) (script : List Answer) : Call → List Request → Prop
  | .list query, sent => ∃ page filter,
      Paging.Page.ofQuery query = .ok page ∧
      s.translateFilter kind (filterOf query) = .ok filter ∧
      ((page.count = 0 ∨ ¬Objects.GivesTotal (firstAnswer script)) →
        sent = [Objects.countRequest c (s.object kind) (.string filter) t]) ∧
      (page.count ≠ 0 → Objects.GivesTotal (firstAnswer script) →
        sent = [Objects.countRequest c (s.object kind) (.string filter) t,
          Objects.pageRequest c (s.object kind) (.string filter) (page.start - 1) page.count t])
  | .get id, sent => sent = [Objects.readRequest c (s.object kind) id t]
  | .create resource, sent => ∃ attributes,
      s.attributesOf kind resource = .ok attributes ∧
      sent = [Objects.createRequest c (s.object kind) (.object attributes) t]
  | .replace id resource revision, sent => ∃ attributes request tag,
      s.attributesOf kind resource = .ok attributes ∧
      request = Objects.replaceRequest c (s.object kind) id (.object attributes) revision t ∧
      request.header? "If-Match" = some tag ∧ tag.filled = true ∧
      tag = (revision.filter Value.filled).getD (.string "*") ∧
      sent = [request]
  | .patch id request revision, sent => ∃ converted,
      (s.converter kind).Converts request converted ∧
      (converted.flatten = [] → sent = [Objects.readRequest c (s.object kind) id t]) ∧
      (converted.flatten ≠ [] → sent = [Objects.patchRequest c (s.object kind) id
        (.array (converted.flatten.map Patch.Operation.toValue)) revision t])
  | .delete id revision, sent => sent = [Objects.deleteRequest c (s.object kind) id revision t]
  | .translate _, sent => sent = []

section

variable {s kind}

theorem refused_of_error {x : Outcome α} (h : ∃ e, x = .error e) (f : α → Operation β)
    (c : Client) : ∃ e, startedIn (settle x >>= f) c = .done (.error e, c) := by
  obtain ⟨e, he⟩ := h
  exact ⟨e, startedIn_settle_fails he f c⟩

/-- A call that is refused ends at once. -/
theorem startedIn_answer_of_refuses {call : Call} (h : s.Refuses kind call) (caller : Caller)
    (c : Client) : ∃ e, startedIn (s.answer kind caller call) c = .done (.error e, c) := by
  have hattributes : ∀ {resource}, ¬IsWhole kind resource →
      ∃ e, s.attributesOf kind resource = .error e := fun hwhole =>
    (ok_or_error _).resolve_left (mt (attributesOf_eq_ok_iff s kind).1 hwhole)
  cases call with
  | list query =>
    rcases h with hpage | hfilter
    · exact refused_of_error hpage _ c
    · rcases ok_or_error (Paging.Page.ofQuery query) with ⟨page, hpage⟩ | hpage
      · obtain ⟨e, he⟩ := refused_of_error hfilter _ c
        exact ⟨e, (startedIn_settle_bind hpage _ c).trans he⟩
      · exact refused_of_error hpage _ c
  | create resource => exact refused_of_error (hattributes h) _ c
  | replace id resource revision => exact refused_of_error (hattributes h) _ c
  | patch id request revision =>
    obtain ⟨fault, hfault⟩ := Patch.Converter.convert_fails_iff.2 h
    refine refused_of_error ⟨.scim ⟨400, fault.detail, some fault.scimType⟩, ?_⟩ _ c
    simp only [Setup.patchOperations, hfault, refuse]
  | translate filter =>
    obtain ⟨e, he⟩ := h
    exact ⟨e, by rw [Setup.answer, he]; rfl⟩
  | get id => exact h.elim
  | delete id revision => exact h.elim

variable {t : String} (ht : t ≠ "") (baseUrl : String) (c : Client) (id : String)

include ht

/-- Reading, creating, replacing, patching and deleting a resource each takes one request. -/
theorem asksOnce_get : AsksOnce (s.get kind id ⟨some t, baseUrl⟩) c
    (Objects.readRequest c (s.object kind) id t) :=
  (asksOnce_ask (Objects.startedIn_read ht c _ id)).bind fun _ => settles_settle _ c

theorem asksOnce_delete (revision : Option Value) :
    AsksOnce (s.delete kind id revision ⟨some t, baseUrl⟩) c
      (Objects.deleteRequest c (s.object kind) id revision t) :=
  asksOnce_ask (Objects.startedIn_delete ht c _ id revision)

theorem asksOnce_create {resource : Value} {attributes : Fields Value}
    (h : s.attributesOf kind resource = .ok attributes) :
    AsksOnce (s.create kind resource ⟨some t, baseUrl⟩) c
      (Objects.createRequest c (s.object kind) (.object attributes) t) :=
  asksOnce_settle_bind h
    ((asksOnce_ask (Objects.startedIn_create ht c _ _)).bind fun _ => settles_settle _ c)

theorem asksOnce_replace {resource : Value} {attributes : Fields Value}
    (h : s.attributesOf kind resource = .ok attributes) (revision : Option Value) :
    AsksOnce (s.replace kind id resource revision ⟨some t, baseUrl⟩) c
      (Objects.replaceRequest c (s.object kind) id (.object attributes) revision t) :=
  asksOnce_settle_bind h
    ((asksOnce_ask (Objects.startedIn_replace ht c _ id _ revision)).bind
      fun _ => settles_settle _ c)

/-- A patch request that comes to no operation reads the resource. -/
theorem asksOnce_patch {request : Value} {operations : List Patch.Operation}
    (h : (s.converter kind).convert request = .ok operations) (revision : Option Value) :
    AsksOnce (s.patch kind id request revision ⟨some t, baseUrl⟩) c
      (if operations.isEmpty then Objects.readRequest c (s.object kind) id t
        else Objects.patchRequest c (s.object kind) id
          (.array (operations.map Patch.Operation.toValue)) revision t) := by
  have hoperations : s.patchOperations kind request = .ok operations := by
    rw [Setup.patchOperations, h]
  refine asksOnce_settle_bind hoperations ?_
  split
  · exact asksOnce_get ht baseUrl c id
  · exact (asksOnce_ask (Objects.startedIn_patch ht c _ id _ revision)).bind
      fun _ => settles_settle _ c

omit ht in
/-- What a list does before and behind its requests sends none. -/
theorem startedIn_list {query : Fields Value} {page : Paging.Page} {filter : String}
    (hpage : Paging.Page.ofQuery query = .ok page)
    (hfilter : s.translateFilter kind (filterOf query) = .ok filter) :
    ∃ rest : Objects.Page → Operation Value, (∀ found, Settles (rest found) c) ∧
      startedIn (s.list kind query ⟨some t, baseUrl⟩) c =
        startedIn (ask ("Failed to list " ++ kind.text ++ "s") "" (Objects.query (s.object kind)
          { filter := .string filter, start := .int page.start, count := .int page.count }
          (some t)) >>= rest) c := by
  refine ⟨_, fun found => ?_,
    (startedIn_settle_bind hpage _ c).trans (startedIn_settle_bind hfilter _ c)⟩
  exact (settles_settle _ c).bind fun objects => (settles_settle _ c).bind fun resources =>
    .pure _

/-- A list takes a request for the total and, if there are a total and a size, one for the page. -/
theorem play_list {query : Fields Value} {page : Paging.Page} {filter : String}
    (hpage : Paging.Page.ofQuery query = .ok page)
    (hfilter : s.translateFilter kind (filterOf query) = .ok filter) (script : List Answer) :
    let played := (startedIn (s.list kind query ⟨some t, baseUrl⟩) c).play script
    played.result.2 = c ∧
    ((page.count = 0 ∨ ¬Objects.GivesTotal (firstAnswer script)) →
      played.calls = [Objects.countRequest c (s.object kind) (.string filter) t]) ∧
    (page.count ≠ 0 → Objects.GivesTotal (firstAnswer script) →
      played.calls = [Objects.countRequest c (s.object kind) (.string filter) t,
        Objects.pageRequest c (s.object kind) (.string filter) (page.start - 1) page.count t]) := by
  have hoffset : max page.start 1 - 1 = page.start - 1 := by
    rw [Int.max_eq_left (one_le_start hpage)]
  obtain ⟨rest, hrest, hlist⟩ := startedIn_list baseUrl c hpage hfilter
  rw [hlist, startedIn_bind, startedIn_ask, Objects.startedIn_query ht, hoffset,
    ← Objects.totalReceived_eq_ok_iff c (s.object kind)]
  simp only [call_bind_eq, play_call]
  -- the answer to the first request decides whether there is a second one
  cases htotal : Objects.totalReceived c (s.object kind) (firstAnswer script) with
  | error e => simp [Except.mapError, play]
  | ok counted =>
    by_cases hcount : page.count = 0
    · obtain ⟨outcome, houtcome⟩ := hrest ⟨counted, .array []⟩
      simp [hcount, play, Except.mapError, houtcome]
    · simp only [hcount, if_false, once, call_bind_eq, play_call, done_bind_eq]
      cases hpage : Objects.pageReceived c (s.object kind) counted (firstAnswer script.tail) with
      | error e => simp [Except.mapError, play]
      | ok found =>
        obtain ⟨outcome, houtcome⟩ := hrest found
        simp [Except.mapError, play, houtcome]

/-- A call that is not refused sends what it stands for. -/
theorem sends_of_not_refuses {call : Call} (h : ¬s.Refuses kind call) (script : List Answer) :
    let played := (startedIn (s.answer kind ⟨some t, baseUrl⟩ call) c).play script
    played.result.2 = c ∧ s.Sends kind c t script call played.calls := by
  cases call with
  | list query =>
    have hpage := (ok_or_error (Paging.Page.ofQuery query)).resolve_right fun he => h (.inl he)
    have hfilter := (ok_or_error (s.translateFilter kind (filterOf query))).resolve_right
      fun he => h (.inr he)
    obtain ⟨page, hpage⟩ := hpage
    obtain ⟨filter, hfilter⟩ := hfilter
    obtain ⟨hclient, hcount, hboth⟩ := play_list ht baseUrl c hpage hfilter script
    exact ⟨hclient, page, filter, hpage, hfilter, hcount, hboth⟩
  | get id =>
    have hasks : AsksOnce (s.get kind id ⟨some t, baseUrl⟩) c _ := asksOnce_get ht baseUrl c id
    exact ⟨hasks.state, hasks.calls⟩
  | create resource =>
    obtain ⟨attributes, hattributes⟩ := (attributesOf_eq_ok_iff s kind).2 (not_not.1 h)
    have hasks := asksOnce_create ht baseUrl c hattributes
    exact ⟨hasks.state, attributes, hattributes, hasks.calls⟩
  | replace id resource revision =>
    obtain ⟨attributes, hattributes⟩ := (attributesOf_eq_ok_iff s kind).2 (not_not.1 h)
    have hasks := asksOnce_replace ht baseUrl c id hattributes revision
    obtain ⟨tag, hheader, hfilled, htag⟩ := Objects.header?_replaceRequest c (s.object kind) id
      (.object attributes) revision t
    exact ⟨hasks.state, attributes, _, tag, hattributes, rfl, hheader, hfilled, htag, hasks.calls⟩
  | patch id request revision =>
    cases hconvert : (s.converter kind).convert request with
    | error fault => exact (h (Patch.Converter.convert_fails_iff.1 ⟨fault, hconvert⟩)).elim
    | ok operations =>
      have hasks := asksOnce_patch ht baseUrl c id hconvert revision
      obtain ⟨converted, hconverts, rfl⟩ := Patch.Converter.convert_eq_ok_iff.1 hconvert
      refine ⟨hasks.state, converted, hconverts, fun hnone => ?_, fun hsome => ?_⟩
      · exact hasks.calls.trans (by rw [if_pos (List.isEmpty_iff.2 hnone)])
      · exact hasks.calls.trans (by rw [if_neg (mt List.isEmpty_iff.1 hsome)])
  | delete id revision =>
    have hasks : AsksOnce (s.answer kind ⟨some t, baseUrl⟩ (.delete id revision)) c _ :=
      (asksOnce_delete ht baseUrl c id revision).bind fun _ => .pure _
    exact ⟨hasks.state, hasks.calls⟩
  | translate filter =>
    obtain ⟨text, htext⟩ := (ok_or_error (s.translateFilter kind filter)).resolve_right h
    have hdone : startedIn (s.answer kind ⟨some t, baseUrl⟩ (.translate filter)) c =
        .done (.ok (.string text), c) := by
      rw [Setup.answer, htext]
      rfl
    rw [hdone]
    exact ⟨rfl, rfl⟩

end

/-- A call with the token of a caller leaves the client as it is. If the service refuses it, for its
type or for what it says, no request is sent; otherwise the requests that it stands for are. -/
theorem perform_refuses_or_sends (s : Setup) (type baseUrl t : String) (ht : t ≠ "") (call : Call)
    (c : Client) (script : List Answer) :
    let played := (startedIn (s.perform type ⟨some t, baseUrl⟩ call) c).play script
    played.result.2 = c ∧
    (Kind.ofText? type = none → played.calls = [] ∧ ∃ e, played.result.1 = .error e) ∧
    ∀ kind, Kind.ofText? type = some kind →
      (s.Refuses kind call → played.calls = [] ∧ ∃ e, played.result.1 = .error e) ∧
      (¬s.Refuses kind call → s.Sends kind c t script call played.calls) := by
  intro played
  cases htype : Kind.ofText? type with
  | none =>
    have hdone : ∃ e, startedIn (s.perform type ⟨some t, baseUrl⟩ call) c =
        .done (.error e, c) := by
      simp only [Setup.perform, htype]
      cases hcheck : call.check with
      | error e => exact ⟨e, rfl⟩
      | ok _ => exact ⟨.misfit, rfl⟩
    obtain ⟨e, he⟩ := hdone
    simp [played, he, play]
  | some kind =>
    have hanswer : played =
        (startedIn (s.answer kind ⟨some t, baseUrl⟩ call) c).play script := by
      simp only [played, Setup.perform, htype]
    simp only [reduceCtorEq, false_imp_iff, true_and, Option.some.injEq, forall_eq']
    by_cases hrefuses : s.Refuses kind call
    · obtain ⟨e, he⟩ := startedIn_answer_of_refuses hrefuses ⟨some t, baseUrl⟩ c
      rw [hanswer, he]
      exact ⟨rfl, fun _ => ⟨rfl, e, rfl⟩, fun h => (h hrefuses).elim⟩
    · obtain ⟨hclient, hsends⟩ := sends_of_not_refuses ht baseUrl c hrefuses script
      rw [hanswer]
      exact ⟨hclient, fun h => (hrefuses h).elim, fun _ => hsends⟩

/-- A patch request whose second entry is not an object does not reach the backend, although its
first entry could be converted. -/
theorem perform_refuses_later_entry :
    let request : Value := .object
      [("schemas", .texts [Urn.patchOp]),
       ("Operations", .array
         [.object [("op", .string "remove"), ("path", .string "title")], .null])]
    ((startedIn (Setup.perform ⟨{}, .empty⟩ "User" ⟨some "token", ""⟩ (.patch "1" request none))
      (.ofAddress usualAddress)).play []).calls = [] :=
  (((perform_refuses_or_sends ⟨{}, .empty⟩ "User" "" "token" (by decide) (.patch "1" _ none)
    (.ofAddress usualAddress) []).2.2 .user (by decide)).1
      (.inr ⟨_, rfl, .null, by simp, .malformedOperation, rfl⟩)).1

end Service

end ScimBridge
