import ScimBridge.Proofs.Backend.Requests
import ScimBridge.Proofs.Json.Reading
import ScimBridge.Proofs.Schema.Snapshot
import ScimBridge.Schema.Source

/-!
# Loading from the backend

Whatever the backend answers, a rebuild from it publishes a snapshot, or it fails to load an object
and leaves the snapshot as it is (`ensures_rebuild`). No third outcome is possible, since the
definitions that are loaded stand in a document that was read, so that no name occurs twice among
them.
-/

namespace ScimBridge

namespace Backend

/-! ## What operations yield -/

section

variable {ε σ α β : Type} {Q : α → Prop} {x : ExceptT ε (StateT σ Exchange) α}

/-- Every value that an operation can come to has a property, whatever the answers. -/
def Yields (Q : α → Prop) (x : ExceptT ε (StateT σ Exchange) α) : Prop :=
  ∀ s, (startedIn x s).Ensures (fun _ => True) fun p => ∀ a, p.1 = .ok a → Q a

namespace Yields

theorem any (x : ExceptT ε (StateT σ Exchange) α) : Yields (fun _ => True) x :=
  fun _ => (Exchange.ensures_true _).mono fun _ _ _ _ => trivial

theorem pure {a : α} (h : Q a) : Yields Q (pure a : ExceptT ε (StateT σ Exchange) α) := by
  rintro s b ⟨⟩
  exact h

theorem bind (hx : Yields Q x) {R : β → Prop} {f : α → ExceptT ε (StateT σ Exchange) β}
    (hf : ∀ a, Q a → Yields R (f a)) : Yields R (x >>= f) := by
  intro s
  rw [startedIn_bind, Exchange.ensures_bind]
  refine (hx s).mono fun p hp => ?_
  obtain ⟨outcome, s'⟩ := p
  cases outcome with
  | ok a => exact hf a (hp a rfl) s'
  | error e => exact fun b hb => nomatch hb

end Yields

end

/-! ## The configuration of the backend -/

theorem yields_readDocument (text : String) : Yields Value.IsOrderly (readDocument text) := by
  intro c
  rw [startedIn_readDocument]
  intro v hv
  unfold documentIn at hv
  split at hv
  · rename_i w hw
    cases hv
    exact isOrderly_ofDocument hw
  · cases hv

namespace ManagedConfig

theorem isOrderly_of_members? {v : Value} (h : v.IsOrderly) {members : Fields Value}
    (hmembers : v.members? = some members) : (Value.object members).IsOrderly := by
  cases h with
  | object hnames hvalues =>
    cases hmembers
    exact .object hnames hvalues
  | _ => cases hmembers

theorem yields_fetch : Yields (fun config? : Option ManagedConfig =>
    ∀ config ∈ config?, (Value.object config).IsOrderly) fetch := by
  refine (Yields.any _).bind fun found _ => ?_
  cases found with
  | none => exact .pure (by simp)
  | some p =>
    exact (yields_readDocument p.2).bind fun v hv => .pure fun config hconfig =>
      isOrderly_of_members? hv hconfig

theorem isOrderly_find? {config : ManagedConfig} (h : (Value.object config).IsOrderly)
    {name : Value} {entry : Fields Value} (hentry : find? config name = some entry) :
    (Value.object entry).IsOrderly := by
  unfold find? at hentry
  split at hentry
  · rename_i items hitems
    obtain ⟨item, hitem, hmembers⟩ :=
      List.mem_filterMap.1 (List.mem_of_find?_eq_some hentry)
    have hlist : (Value.array items).IsOrderly := h.get? hitems
    cases hlist with
    | array hall => exact isOrderly_of_members? (hall item hitem) hmembers
  · cases hentry

/-- The property definitions of an entry have different names. -/
theorem nodup_properties? {entry : Value} (h : entry.IsOrderly) {properties : Fields Value}
    (hproperties : properties? entry = some properties) : properties.keys.Nodup := by
  have hdirect : ∀ v, entry.get? "properties" = some v → v.members? = some properties →
      properties.keys.Nodup := fun v hv => (h.get? hv).nodup_members
  unfold properties? at hproperties
  dsimp only at hproperties
  rcases Option.or_eq_some_iff.1 hproperties with hschema | ⟨-, hfound⟩
  · obtain ⟨v, hv, hmembers⟩ := Option.bind_eq_some_iff.1 hschema
    obtain ⟨schema, hschema, hv⟩ := Option.bind_eq_some_iff.1 hv
    exact ((h.get? hschema).get? hv).nodup_members hmembers
  · obtain ⟨v, hv, hmembers⟩ := Option.bind_eq_some_iff.1 hfound
    exact hdirect v hv hmembers

/-- The property definitions that are fetched have different names. -/
theorem yields_fetchEntry (name : Value) : Yields (fun entry? : Option (Fields Value) =>
    ∀ entry ∈ entry?, ∀ properties ∈ properties? (.object entry), properties.keys.Nodup)
      (fetchEntry name) := by
  refine yields_fetch.bind fun config? hconfig => .pure fun entry hentry properties hproperties => ?_
  obtain ⟨config, hsome, hfound⟩ := Option.bind_eq_some_iff.1 hentry
  exact nodup_properties? (isOrderly_find? (hconfig config hsome) hfound) hproperties

end ManagedConfig

end Backend

namespace Schema

open Backend

/-! ## Rebuilds -/

/-- Property definitions of which no name occurs twice. -/
structure Properties.Distinct (p : Properties) : Prop where
  user : ∀ fields ∈ p.user, fields.keys.Nodup
  group : ∀ fields ∈ p.group, fields.keys.Nodup

theorem Properties.Distinct.put {p : Properties} (h : p.Distinct) (kind : ObjectKind)
    {found : Option (Fields Value)} (hfound : ∀ fields ∈ found, fields.keys.Nodup) :
    (p.put kind found).Distinct := by
  cases kind with
  | user => exact ⟨hfound, h.group⟩
  | group => exact ⟨h.user, hfound⟩

theorem exists_propertyMap {found : Option (Fields Value)}
    (h : ∀ fields ∈ found, fields.keys.Nodup) :
    ∃ map? : Option PropertyMap, map?.map PropertyMap.fields = found := by
  cases found with
  | none => exact ⟨none, rfl⟩
  | some fields => exact ⟨some ⟨fields, h fields rfl⟩, rfl⟩

/-- A snapshot can be made of distinct definitions. -/
theorem exists_snapshotOf_of_distinct {p : Properties} (h : p.Distinct) (c : MappingConfig) :
    ∃ s, snapshotOf p c = .ok s ∧ s.initialized = true := by
  obtain ⟨user, huser⟩ := exists_propertyMap h.user
  obtain ⟨group, hgroup⟩ := exists_propertyMap h.group
  obtain ⟨_, s, -, -, hsnapshot, hinitialized, -⟩ := exists_snapshotOf ⟨user, group⟩ c
  have hproperties : PropertyMaps.properties ⟨user, group⟩ = p := by
    rw [PropertyMaps.properties, huser, hgroup]
  exact ⟨s, hproperties ▸ hsnapshot, hinitialized⟩

/-- The backend is asked for the entry of an object, in which the definitions are looked for. -/
theorem run_backendSource (object : String) (c : Client) :
    (backendSource object).run c =
      (startedIn (ManagedConfig.fetchEntry (.string object)) c >>= fun p =>
        .done ((p.1.mapError LoadFault.backend).map fun entry => entry.bind fun members =>
          ManagedConfig.properties? (.object members), p.2)) := by
  refine congrArg (startedIn (ManagedConfig.fetchEntry (.string object)) c >>= ·)
    (funext fun p => ?_)
  obtain ⟨outcome, c'⟩ := p
  cases outcome <;> rfl

/-- What the backend has for an object is an error, or distinct definitions. -/
theorem ensures_backendSource (object : String) (c : Client) :
    ((backendSource object).run c).Ensures (fun _ => True) fun p =>
      ∀ found, p.1 = .ok found → ∀ fields ∈ found, fields.keys.Nodup := by
  rw [run_backendSource, Exchange.ensures_bind]
  refine (ManagedConfig.yields_fetchEntry (.string object) c).mono fun p hp => ?_
  obtain ⟨outcome, c'⟩ := p
  cases outcome with
  | error e => exact fun found hfound => nomatch hfound
  | ok entry =>
    intro found hfound fields hfields
    obtain rfl := Except.ok.inj hfound
    obtain ⟨members, hmembers, hproperties⟩ := Option.bind_eq_some_iff.1 hfields
    exact hp entry rfl members hmembers fields hproperties

/-- Objects are loaded one after the other, up to the first that fails. -/
theorem run_loadAll_cons (kind : ObjectKind) (object : String) (rest : ManagedObjects)
    (found : Properties) (c : Client) :
    (loadAll backendSource ((kind, object) :: rest) found).run c =
      ((backendSource object).run c >>= fun p => match p.1 with
        | .error fault => .done (.error (.load object fault), p.2)
        | .ok properties => (loadAll backendSource rest (found.put kind properties)).run p.2) := by
  refine congrArg ((backendSource object).run c >>= ·) (funext fun p => ?_)
  obtain ⟨outcome, c'⟩ := p
  cases outcome <;> rfl

/-- Loading from the backend gives distinct definitions, or an object fails to load. -/
theorem ensures_loadAll (objects : ManagedObjects) {found : Properties} (h : found.Distinct)
    (c : Client) :
    ((loadAll backendSource objects found).run c).Ensures (fun _ => True) fun p =>
      (∃ properties, p.1 = .ok properties ∧ properties.Distinct) ∨
        ∃ object fault, p.1 = .error (.load object fault) := by
  induction objects generalizing found c with
  | nil => exact .inl ⟨found, rfl, h⟩
  | cons q rest ih =>
    obtain ⟨kind, object⟩ := q
    rw [run_loadAll_cons, Exchange.ensures_bind]
    refine (ensures_backendSource object c).mono fun p hp => ?_
    obtain ⟨outcome, c'⟩ := p
    cases outcome with
    | error fault => exact .inr ⟨object, fault, rfl⟩
    | ok properties => exact ih (h.put kind (hp properties rfl)) c'

/-- What a rebuild comes to: a snapshot is published, or an object failed to load and the cache is
as it was. -/
inductive Rebuilt (before : Cache) : Except RebuildError Snapshot → Cache → Prop
  | published {s : Snapshot} (h : s.initialized = true) :
      Rebuilt before (.ok s) { before with snapshot := s }
  | failed (object : String) (fault : LoadFault) :
      Rebuilt before (.error (.load object fault)) before

/-- A rebuild loads the definitions and publishes the snapshot that is made of them. -/
theorem run_rebuild (cache : Cache) (c : Client) :
    (cache.rebuild backendSource).run c =
      ((loadAll backendSource cache.objects {}).run c >>= fun p =>
        match p.1.bind fun properties => snapshotOf properties cache.config with
        | .error e => .done ((.error e, cache), p.2)
        | .ok s => .done ((.ok s, { cache with snapshot := s }), p.2)) := by
  unfold Cache.rebuild Cache.load
  simp only [StateT.run_bind, bind_assoc]
  refine congrArg ((loadAll backendSource cache.objects {}).run c >>= ·) (funext fun p => ?_)
  obtain ⟨outcome, c'⟩ := p
  cases outcome with
  | error e => rfl
  | ok properties =>
    dsimp only [Except.bind]
    cases snapshotOf properties cache.config <;> rfl

/-- A rebuild from the backend comes to nothing else, whatever the answers. -/
theorem ensures_rebuild (cache : Cache) (c : Client) :
    ((cache.rebuild backendSource).run c).Ensures (fun _ => True) fun p =>
      Rebuilt cache p.1.1 p.1.2 := by
  rw [run_rebuild, Exchange.ensures_bind]
  have hempty : Properties.Distinct {} := ⟨by simp, by simp⟩
  refine (ensures_loadAll cache.objects hempty c).mono fun p hp => ?_
  obtain ⟨outcome, c'⟩ := p
  rcases hp with ⟨properties, rfl, hdistinct⟩ | ⟨object, fault, rfl⟩
  · obtain ⟨s, hs, hinitialized⟩ := exists_snapshotOf_of_distinct hdistinct cache.config
    dsimp only [Except.bind]
    rw [hs]
    exact .published hinitialized
  · exact .failed object fault

end Schema

end ScimBridge
