import ScimBridge.Proofs.Backend.Pairs
import ScimBridge.Proofs.Resource.Dependence
import ScimBridge.Proofs.Service.Requests

/-!
# What the service reads of users

A response depends on nothing but the attributes of backend users that are read: two backends that
tell the same of them (`SameDocument`) are asked the same and lead to the same response, whatever
other attributes their users have (`users_read_confined`).

1. Users that agree on what is read have one resource (`resourceOf_congr`).
2. Every step of an operation goes beside itself with answers that are taken for the same
   (`parallel_answer`).
3. So does whatever is played.
-/

namespace ScimBridge

namespace Service

open Backend

variable {α β : Type}

/-! ## Documents that are taken for the same -/

/-- Backend objects that agree on what is read. Of anything but users, everything counts as read. -/
def SameObject (c : MappingConfig) (kind : Kind) (v v' : Value) : Prop :=
  v = v' ∨ kind = .user ∧
    ∃ user other, v = .object user ∧ v' = .object other ∧ User.Agree c user other

/-- Pages with one object after the other that agree on what is read. -/
def SamePage (c : MappingConfig) (kind : Kind) (v v' : Value) : Prop :=
  v = v' ∨ ∃ (members members' : Fields Value) (items items' : List Value),
    v = .object members ∧ v' = .object members' ∧
    members.get? "result" = some (.array items) ∧ members'.get? "result" = some (.array items') ∧
    List.Forall₂ (SameObject c kind) items items'

/-- Answers to a request that agree on what is read: a request for a page is answered with objects,
one for the total with a number, any other one with an object. -/
def SameDocument (c : MappingConfig) (kind : Kind) (params : Option Value) (v v' : Value) : Prop :=
  if (paramOf params "_pageSize").isSome then SamePage c kind v v'
  else if (paramOf params "_countOnly").isSome then v = v'
  else SameObject c kind v v'

variable {c : MappingConfig} {kind : Kind}

/-! ## Resources -/

theorem resourceOf_congr {s : Setup} {v v' : Value} (h : SameObject s.config kind v v')
    (baseUrl : String) : s.resourceOf kind baseUrl v = s.resourceOf kind baseUrl v' := by
  rcases h with rfl | ⟨rfl, user, other, rfl, rfl, hagree⟩
  · rfl
  · simp only [Setup.resourceOf, User.ofBackend_congr hagree]

theorem resources_congr {s : Setup} {items items' : List Value}
    (h : List.Forall₂ (SameObject s.config kind) items items') (baseUrl : String) :
    items.mapM (s.resourceOf kind baseUrl) = items'.mapM (s.resourceOf kind baseUrl) := by
  induction h with
  | nil => rfl
  | cons hfirst _ ih => rw [List.mapM_cons, List.mapM_cons, resourceOf_congr hfirst, ih]

/-! ## Requests for objects -/

section Requests

variable {object id : String} {token : Option String}

theorem steady_document {method path : String} {content : Content} {D : Value → Value → Prop}
    (hparams : SameDocument c kind content.params = D) (hrefl : ∀ v, D v v) :
    Steady (SameDocument c kind) D (requestDocument method path content token)
      (requestDocument method path content token) := by
  subst hparams
  exact steady_requestDocument hrefl

theorem steady_object {method : String} {content : Content}
    (hparams : SameDocument c kind content.params = SameObject c kind) :
    Steady (SameDocument c kind) (SameObject c kind)
      (do
        let (_, text) ← Objects.namingMissing object id
          (request method (Objects.objectPath object id) content token)
        readDocument text)
      (do
        let (_, text) ← Objects.namingMissing object id
          (request method (Objects.objectPath object id) content token)
        readDocument text) := by
  rw [← hparams]
  exact steady_objectRequest fun v => by rw [hparams]; exact .inl rfl

theorem steady_read :
    Steady (SameDocument c kind) (SameObject c kind) (Objects.read object id none token)
      (Objects.read object id none token) :=
  steady_object rfl

theorem steady_replace (body : Value) (revision : Option Value) :
    Steady (SameDocument c kind) (SameObject c kind)
      (Objects.replace object id body revision token)
      (Objects.replace object id body revision token) :=
  steady_object rfl

theorem steady_patch (operations : Value) (revision : Option Value) :
    Steady (SameDocument c kind) (SameObject c kind)
      (Objects.patch object id operations revision token)
      (Objects.patch object id operations revision token) :=
  steady_object rfl

theorem steady_delete (revision : Option Value) :
    Steady (SameDocument c kind) Eq (Objects.delete object id revision token)
      (Objects.delete object id revision token) :=
  Parallel.bind (steady_namingMissing object id (steady_request _ _ _ _)) fun _ _ _ => .pure rfl

/-- An object that is created is one of two that agree on what is read. -/
theorem steady_create (body : Value) :
    Steady (SameDocument c kind) (fun m m' => SameObject c kind (.object m) (.object m'))
      (Objects.create object body token) (Objects.create object body token) := by
  refine Parallel.bind (steady_document (D := SameObject c kind) rfl fun v => .inl rfl) ?_
  rintro v v' (rfl | ⟨hkind, user, other, rfl, rfl, hagree⟩)
  · exact steady_of_done (fun _ => .inl rfl) fun client => ⟨_, startedIn_membersOf v client⟩
  · exact .pure (.inr ⟨hkind, user, other, rfl, rfl, hagree⟩)

/-! ## Requests for pages -/

theorem steady_count (filter : Value) :
    Steady (SameDocument c kind) Eq (Objects.count object filter token)
      (Objects.count object filter token) := by
  refine Parallel.bind (steady_document (D := Eq) rfl fun v => rfl) ?_
  rintro v _ rfl
  refine steady_of_done (fun _ => rfl) fun client => ?_
  rw [startedIn_bind, startedIn_membersOf, Exchange.done_bind_eq]
  cases membersIn v <;> exact ⟨_, rfl⟩

/-- Lists of objects that agree one by one on what is read, or something else twice. -/
def SameResults (c : MappingConfig) (kind : Kind) (v v' : Value) : Prop :=
  v = v' ∨ ∃ items items', v = .array items ∧ v' = .array items' ∧
    List.Forall₂ (SameObject c kind) items items'

/-- The objects of a page, by what the page holds. -/
theorem sameResults_of_page {members members' : Fields Value}
    (h : SamePage c kind (.object members) (.object members')) :
    SameResults c kind ((Value.filled? members "result").getD (.array []))
      ((Value.filled? members' "result").getD (.array [])) := by
  rcases h with heq | ⟨_, _, items, items', ⟨⟩, ⟨⟩, hitems, hitems', hsame⟩
  · obtain rfl := Value.object.inj heq
    exact .inl rfl
  · refine .inr ⟨items, items', ?_, ?_, hsame⟩
    · rw [Value.filled?, hitems]
      cases items <;> rfl
    · rw [Value.filled?, hitems']
      cases items' <;> rfl

theorem steady_pageTotal (counted : Value) {results results' : Value}
    (h : SameResults c kind results results') :
    Steady (SameDocument c kind) Eq (Objects.pageTotal counted results)
      (Objects.pageTotal counted results') := by
  have hsize : Objects.sizeOf? results = Objects.sizeOf? results' := by
    rcases h with rfl | ⟨items, items', rfl, rfl, hsame⟩
    · rfl
    · simp only [Objects.sizeOf?, hsame.length_eq]
  unfold Objects.pageTotal
  rw [hsize]
  refine steady_of_done (fun _ => rfl) fun client => ?_
  split
  · exact ⟨_, rfl⟩
  · split <;> exact ⟨_, rfl⟩

/-- Two pages with the same total and objects that agree on what is read. -/
def SameListing (c : MappingConfig) (kind : Kind) (p p' : Objects.Page) : Prop :=
  p.total = p'.total ∧ SameResults c kind p.results p'.results

theorem steady_query (q : Objects.Query) :
    Steady (SameDocument c kind) (SameListing c kind) (Objects.query object q token)
      (Objects.query object q token) := by
  refine Parallel.bind (steady_count q.filter) ?_
  rintro counted _ rfl
  dsimp only
  split
  · exact .pure ⟨rfl, .inl rfl⟩
  · have hoffset : Steady (SameDocument c kind) Eq (Objects.offsetOf q.start)
        (Objects.offsetOf q.start) := by
      refine steady_of_done (fun _ => rfl) fun client => ?_
      unfold Objects.offsetOf
      split <;> exact ⟨_, rfl⟩
    refine Parallel.bind hoffset ?_
    rintro offset _ rfl
    refine Parallel.bind (steady_document (D := SamePage c kind) rfl fun v => .inl rfl)
      fun v v' hpage => ?_
    have hmembers : Steady (SameDocument c kind)
        (fun m m' => SamePage c kind (.object m) (.object m')) (Objects.membersOf v)
        (Objects.membersOf v') := by
      rcases hpage with rfl | ⟨members, members', items, items', rfl, rfl, hrest⟩
      · exact steady_of_done (fun _ => .inl rfl) fun client => ⟨_, startedIn_membersOf v client⟩
      · exact .pure (.inr ⟨members, members', items, items', rfl, rfl, hrest⟩)
    refine Parallel.bind hmembers fun members members' hsame => ?_
    have hresults := sameResults_of_page hsame
    refine Parallel.bind (steady_pageTotal counted hresults) ?_
    rintro total _ rfl
    exact .pure ⟨rfl, hresults⟩

end Requests

/-! ## Operations of the service -/

section

variable {R : Backend.Request → Answer → Answer → Prop} {Q : α → β → Prop}

theorem parallel_settle {x : Outcome α} {y : Outcome β} (h : SameOutcome Eq Q x y) :
    Parallel R Eq Q (settle x : Operation α) (settle y) := fun _ => ⟨h, rfl⟩

theorem parallel_settle_self (x : Outcome α) :
    Parallel R Eq Eq (settle x : Operation α) (settle x) :=
  parallel_settle (.refl (fun _ => rfl) (fun _ => rfl) x)

/-- The wording of an error of the backend is lost where it becomes an error of the service. -/
theorem ofBackendError_congr (action missing : String) {e e' : BackendError} (h : SameError e e') :
    ofBackendError action missing e = ofBackendError action missing e' := by
  cases h <;> rfl

theorem parallel_ask {D : Option Value → Value → Value → Prop} (action missing : String)
    {x : Action α} {y : Action β} (h : Steady D Q x y) :
    Parallel (Interchangeable D) Eq Q (ask action missing x) (ask action missing y) := by
  intro client
  rw [startedIn_ask, startedIn_ask]
  refine (h client).bind ?_
  rintro ⟨outcome, client'⟩ ⟨outcome', _⟩ ⟨houtcome, rfl⟩
  cases houtcome with
  | ok hab => exact ⟨.ok hab, rfl⟩
  | error he => exact ⟨.error (ofBackendError_congr action missing he), rfl⟩

end

variable (s : Setup)

/-- What becomes of an object that the backend was asked for. -/
theorem parallel_resource {x : Action Value} (action missing baseUrl : String)
    (h : Steady (SameDocument s.config kind) (SameObject s.config kind) x x) :
    Parallel (Interchangeable (SameDocument s.config kind)) Eq Eq
      (ask action missing x >>= fun object => settle (s.resourceOf kind baseUrl object))
      (ask action missing x >>= fun object => settle (s.resourceOf kind baseUrl object)) := by
  refine Parallel.bind (parallel_ask action missing h) fun object object' hobject => ?_
  rw [resourceOf_congr hobject]
  exact parallel_settle_self _

theorem parallel_list (query : Fields Value) (caller : Caller) :
    Parallel (Interchangeable (SameDocument s.config kind)) Eq Eq (s.list kind query caller)
      (s.list kind query caller) := by
  refine Parallel.bind (parallel_settle_self _) ?_
  rintro page _ rfl
  refine Parallel.bind (parallel_settle_self _) ?_
  rintro filter _ rfl
  refine Parallel.bind (parallel_ask _ _ (steady_query _)) ?_
  rintro ⟨total, results⟩ ⟨_, results'⟩ ⟨rfl, hresults⟩
  dsimp only at hresults ⊢
  have hobjects : SameOutcome Eq (List.Forall₂ (SameObject s.config kind)) (objectsOf results)
      (objectsOf results') := by
    rcases hresults with rfl | ⟨items, items', rfl, rfl, hsame⟩
    · exact .refl (fun _ => rfl) (fun _ => List.forall₂_same.2 fun _ _ => .inl rfl) _
    · exact .ok hsame
  refine Parallel.bind (parallel_settle hobjects) fun objects objects' hsame => ?_
  rw [resources_congr hsame]
  refine Parallel.bind (parallel_settle_self _) ?_
  rintro resources _ rfl
  exact .pure rfl

/-- Every call of the service goes beside itself with answers that are taken for the same. -/
theorem parallel_answer (kind : Kind) (caller : Caller) (call : Call) :
    Parallel (Interchangeable (SameDocument s.config kind)) Eq Eq (s.answer kind caller call)
      (s.answer kind caller call) := by
  have hget : ∀ id, Parallel (Interchangeable (SameDocument s.config kind)) Eq Eq
      (s.get kind id caller) (s.get kind id caller) := fun id =>
    parallel_resource s _ _ _ steady_read
  cases call with
  | list query => exact parallel_list s query caller
  | get id => exact hget id
  | create resource =>
    refine Parallel.bind (parallel_settle_self _) ?_
    rintro attributes _ rfl
    refine Parallel.bind (parallel_ask _ _ (steady_create _)) fun object object' hobject => ?_
    rw [resourceOf_congr hobject]
    exact parallel_settle_self _
  | replace id resource revision =>
    refine Parallel.bind (parallel_settle_self _) ?_
    rintro attributes _ rfl
    exact parallel_resource s _ _ _ (steady_replace _ _)
  | patch id request revision =>
    refine Parallel.bind (parallel_settle_self _) ?_
    rintro operations _ rfl
    split
    · exact hget id
    · exact parallel_resource s _ _ _ (steady_patch _ _)
  | delete id revision =>
    refine Parallel.bind (parallel_ask _ _ (steady_delete revision)) ?_
    rintro ⟨⟩ ⟨⟩ -
    exact .pure rfl
  | translate filter =>
    refine Parallel.bind (parallel_settle_self _) ?_
    rintro text _ rfl
    exact .pure rfl

/-- Two backend users that agree on what is read have the same resource under every address, or both
have none. And a call for users has the same outcome, and asks the same of the backend, whenever the
answers that it takes agree on what is read of users: no other attribute of a user has any influence
on what is answered. -/
theorem users_read_confined (s : Setup) :
    (∀ user other, User.Agree s.config user other → ∀ baseUrl,
      User.ofBackend baseUrl s.config user = User.ofBackend baseUrl s.config other) ∧
    ∀ (caller : Caller) (call : Call) (client : Client) (script script' : List Answer),
      let run := startedIn (s.answer .user caller call) client
      run.Meets (Interchangeable (SameDocument s.config .user)) script script' →
        (run.play script').calls = (run.play script).calls ∧
        (run.play script').result = (run.play script).result := by
  refine ⟨fun _ _ h => User.ofBackend_congr h, ?_⟩
  intro caller call client script script' run h
  obtain ⟨hcalls, houtcome, hclient⟩ := (parallel_answer s .user caller call client).play h
  exact ⟨hcalls.symm, Prod.ext houtcome.eq.symm hclient.symm⟩

/-- A backend user with a password. -/
def knownBy (password : String) : Fields Value :=
  [("_id", .string "1"), ("userName", .string "ada"), ("password", .string password)]

theorem agree_knownBy (password password' : String) :
    User.Agree .empty (knownBy password) (knownBy password') := by
  intro name hname
  have hne : name ≠ "password" := by
    rintro rfl
    revert hname
    decide
  simp [knownBy, Fields.get?_cons, hne]

theorem passwords_unread :
    User.ofBackend "" .empty (knownBy "first") = User.ofBackend "" .empty (knownBy "second") ∧
    let run := startedIn (Setup.answer ⟨{}, .empty⟩ .user ⟨some "token", ""⟩ (.get "1"))
      (.ofAddress usualAddress)
    (run.play [.response 200
        "\x7b\"_id\":\"1\",\"userName\":\"ada\",\"password\":\"second\"\x7d"]).result =
      (run.play [.response 200
        "\x7b\"_id\":\"1\",\"userName\":\"ada\",\"password\":\"first\"\x7d"]).result := by
  obtain ⟨husers, hcalls⟩ := users_read_confined ⟨{}, .empty⟩
  refine ⟨husers _ _ (agree_knownBy "first" "second") "", ?_⟩
  have hsame : SameObject .empty .user (.object (knownBy "first")) (.object (knownBy "second")) :=
    .inr ⟨rfl, _, _, rfl, rfl, agree_knownBy "first" "second"⟩
  refine (hcalls ⟨some "token", ""⟩ (.get "1") (.ofAddress usualAddress) _ _ ?_).2
  exact ⟨.document rfl rfl rfl hsame 200, trivial⟩

end Service

end ScimBridge
