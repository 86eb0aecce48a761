import ScimBridge.Proofs.Schema.Snapshot

/-!
# Runs of the cache

Between the rebuilds of a cache its source may change and its snapshot may be read, in any order and
any number of times. In every state of every run the snapshot is consistent, it changes only at a
rebuild that loaded every object, a rebuild that failed to load one names it and leaves no trace,
and a cache that was built once stays built (`run_rebuilds_atomically`).

1. `loadAll_of_loaded`, `loadAll_of_fault`: loading goes through all objects, or up to the first
   that fails, and one of the two is always the case (`loaded_or_fault`).
2. Schemas are compiled from whatever was loaded, so a rebuild fails for no other reason.
-/

namespace ScimBridge

namespace Schema

/-- A source of property maps. What it answers may depend on a state, which it may change. -/
abbrev Fetch (σ : Type) : Type := String → StateM σ (Except LoadFault (Option PropertyMap))

variable {σ : Type}

/-- The source as a rebuild uses it. -/
def Fetch.source (fetch : Fetch σ) : Source (StateM σ) := fun object =>
  (fun answer => answer.map (·.map PropertyMap.fields)) <$> fetch object

/-! ## Loading -/

/-- The property maps that were loaded, by the kinds of their objects. -/
abbrev Found : Type := List (ObjectKind × Option PropertyMap)

/-- From one state of a source to another one, every one of some objects is loaded. -/
inductive Loaded (fetch : Fetch σ) : σ → ManagedObjects → Found → σ → Prop
  | nil (w : σ) : Loaded fetch w [] [] w
  | cons {w middle behind : σ} {kind : ObjectKind} {object : String} {rest : ManagedObjects}
      {map? : Option PropertyMap} {found : Found} (h : fetch object w = (.ok map?, middle))
      (hrest : Loaded fetch middle rest found behind) :
      Loaded fetch w ((kind, object) :: rest) ((kind, map?) :: found) behind

/-- The first object that cannot be loaded, and why. -/
inductive Fails (fetch : Fetch σ) : σ → ManagedObjects → String → LoadFault → σ → Prop
  | at {w middle behind : σ} {front : ManagedObjects} {kind : ObjectKind} {object : String}
      {rest : ManagedObjects} {found : Found} {fault : LoadFault}
      (hfront : Loaded fetch w front found middle)
      (h : fetch object middle = (.error fault, behind)) :
      Fails fetch w (front ++ (kind, object) :: rest) object fault behind

/-- All objects are loaded, or there is a first that is not. -/
theorem loaded_or_fault (fetch : Fetch σ) (objects : ManagedObjects) (w : σ) :
    (∃ found behind, Loaded fetch w objects found behind) ∨
      ∃ object fault behind, Fails fetch w objects object fault behind := by
  induction objects generalizing w with
  | nil => exact .inl ⟨[], w, .nil w⟩
  | cons p rest ih =>
    obtain ⟨kind, object⟩ := p
    rcases h : fetch object w with ⟨answer, middle⟩
    cases answer with
    | error fault =>
      have hfails : Fails fetch w ([] ++ (kind, object) :: rest) object fault middle :=
        .at (.nil w) h
      exact .inr ⟨object, fault, middle, hfails⟩
    | ok map? =>
      rcases ih middle with ⟨found, behind, hrest⟩ | ⟨failing, fault, behind, hfail⟩
      · exact .inl ⟨_, behind, .cons h hrest⟩
      · obtain ⟨hfront, hfault⟩ := hfail
        exact .inr ⟨failing, fault, behind, .at (.cons h hfront) hfault⟩

/-- Keep one property map after the other. -/
def Found.putAll (found : Found) (properties : Properties) : Properties :=
  found.foldl (fun acc p => acc.put p.1 (p.2.map PropertyMap.fields)) properties

theorem source_eq_ok {fetch : Fetch σ} {object : String} {w behind : σ}
    {map? : Option PropertyMap} (h : fetch object w = (.ok map?, behind)) :
    fetch.source object w = (.ok (map?.map PropertyMap.fields), behind) := by
  simp [Fetch.source, Functor.map, StateT.map, h, Except.map]

theorem source_eq_error {fetch : Fetch σ} {object : String} {w behind : σ} {fault : LoadFault}
    (h : fetch object w = (.error fault, behind)) :
    fetch.source object w = (.error fault, behind) := by
  simp [Fetch.source, Functor.map, StateT.map, h, Except.map]

/-- Objects that are loaded do not stop the loading. -/
theorem loadAll_append {fetch : Fetch σ} {w behind : σ} {front : ManagedObjects} {found : Found}
    (h : Loaded fetch w front found behind) (rest : ManagedObjects) (properties : Properties) :
    loadAll fetch.source (front ++ rest) properties w =
      loadAll fetch.source rest (found.putAll properties) behind := by
  induction h generalizing properties with
  | nil w => rfl
  | cons h _ ih =>
    simp only [List.cons_append, loadAll, bind, StateT.bind, source_eq_ok h]
    exact ih _

theorem loadAll_of_loaded {fetch : Fetch σ} {w behind : σ} {objects : ManagedObjects}
    {found : Found} (h : Loaded fetch w objects found behind) :
    loadAll fetch.source objects {} w = (.ok (found.putAll {}), behind) := by
  have := loadAll_append h [] {}
  rwa [List.append_nil] at this

theorem loadAll_of_fails {fetch : Fetch σ} {w behind : σ} {objects : ManagedObjects}
    {object : String} {fault : LoadFault} (h : Fails fetch w objects object fault behind) :
    loadAll fetch.source objects {} w = (.error (.load object fault), behind) := by
  obtain ⟨hfront, hfault⟩ := h
  rw [loadAll_append hfront]
  simp only [loadAll, bind, StateT.bind, source_eq_error hfault]
  rfl

/-! ## The property maps of a rebuild -/

/-- The property maps that were loaded for users and for groups. -/
def Found.maps (found : Found) : PropertyMaps :=
  ⟨(found.lookup .user).join, (found.lookup .group).join⟩

theorem Loaded.kinds {fetch : Fetch σ} {w behind : σ} {objects : ManagedObjects} {found : Found}
    (h : Loaded fetch w objects found behind) : found.map Prod.fst = objects.map Prod.fst := by
  induction h with
  | nil => rfl
  | cons _ _ ih => simp [ih]

/-- No kind of objects is configured twice. -/
theorem nodup_managedObjects (pairs : ManagedObjects) :
    ((managedObjects pairs).map Prod.fst).Nodup := by
  unfold managedObjects
  extract_lets put
  have hput : ((pairs.foldl put []).map Prod.fst).Nodup := by
    refine List.foldlRecOn (motive := fun acc : ManagedObjects => (acc.map Prod.fst).Nodup)
      pairs put List.nodup_nil fun acc hacc p _ => ?_
    simp only [put]
    split
    · have hkinds : (acc.map fun q => if q.1 == p.1 then (q.1, p.2) else q).map Prod.fst =
          acc.map Prod.fst := by
        rw [List.map_map]
        refine List.map_congr_left fun q _ => ?_
        simp only [Function.comp_apply]
        split <;> rfl
      rwa [hkinds]
    · rename_i hnew
      have hfree : p.1 ∉ acc.map Prod.fst := fun hkind => by
        obtain ⟨q, hq, heq⟩ := List.mem_map.1 hkind
        exact hnew (List.any_eq_true.2 ⟨q, hq, by simpa using heq⟩)
      rw [List.map_append, List.map_singleton, ← List.concat_eq_append]
      exact hacc.concat hfree
  split
  · decide
  · exact hput

/-- Property maps of different kinds are kept beside each other. -/
theorem putAll_eq_elim {found : Found} (h : (found.map Prod.fst).Nodup) (p : Properties) :
    found.putAll p =
      ⟨(found.lookup .user).elim p.user (·.map PropertyMap.fields),
       (found.lookup .group).elim p.group (·.map PropertyMap.fields)⟩ := by
  induction found generalizing p with
  | nil => rfl
  | cons q rest ih =>
    obtain ⟨kind, map?⟩ := q
    obtain ⟨hkind, hrest⟩ := List.nodup_cons.1 h
    have hnone : rest.lookup kind = none := by
      refine List.lookup_eq_none_iff.2 fun q hq => ?_
      have hne : kind ≠ q.1 := fun heq => hkind (List.mem_map.2 ⟨q, hq, heq.symm⟩)
      simpa using hne
    have hrec := ih hrest (p.put kind (map?.map PropertyMap.fields))
    have hug : (ObjectKind.user == ObjectKind.group) = false := rfl
    have hgu : (ObjectKind.group == ObjectKind.user) = false := rfl
    rw [Found.putAll, List.foldl_cons]
    refine hrec.trans ?_
    cases kind <;> simp [List.lookup_cons, Properties.put, hnone, hug, hgu]

theorem putAll_eq_maps {found : Found} (h : (found.map Prod.fst).Nodup) :
    found.putAll {} = found.maps.properties := by
  rw [putAll_eq_elim h, Found.maps, PropertyMaps.properties]
  cases found.lookup .user <;> cases found.lookup .group <;> rfl

/-! ## Runs -/

/-- What may be asked of a snapshot, and the kind of the answer. -/
inductive Question : Type → Type
  | initialized : Question Bool
  | count : Question Nat
  | ids : Question (List String)
  | list : Question (List SchemaDocument)
  | get (id : String) : Question (Option SchemaDocument)
  | has (id : String) : Question Bool
  | attributes (resourceType : String) : Question (List Attribute)
  | enterprise : Question Bool

/-- The answer of a snapshot. -/
def Question.answer (s : Snapshot) : {α : Type} → Question α → α
  | _, .initialized => s.initialized
  | _, .count => s.documents.length
  | _, .ids => s.ids
  | _, .list => s.list
  | _, .get id => s.get? id
  | _, .has id => s.has id
  | _, .attributes resourceType => s.attributesOf resourceType
  | _, .enterprise => s.hasEnterprise

/-- A cache and the state of its source. -/
structure Runtime (σ : Type) where
  cache : Cache
  backend : σ

/-- What happens to a cache: its source is replaced, it is rebuilt, or it is read. -/
inductive Step (σ : Type) : Type 1
  | source (backend : σ)
  | rebuild
  | read {α : Type} (question : Question α)

namespace Runtime

/-- A new cache for some objects and mappings. -/
def new (pairs : ManagedObjects) (config : MappingConfig) (backend : σ) : Runtime σ :=
  ⟨{ objects := managedObjects pairs, config }, backend⟩

/-- A rebuild, with what it returns. -/
def rebuild (fetch : Fetch σ) (r : Runtime σ) : Except RebuildError Snapshot × Runtime σ :=
  let ((outcome, cache), backend) := (r.cache.rebuild fetch.source).run r.backend
  (outcome, ⟨cache, backend⟩)

/-- What is left behind a step. -/
def step (fetch : Fetch σ) (r : Runtime σ) : Step σ → Runtime σ
  | .source backend => { r with backend }
  | .rebuild => (r.rebuild fetch).2
  | .read _ => r

/-- What is left behind a run. -/
def run (fetch : Fetch σ) (r : Runtime σ) (steps : List (Step σ)) : Runtime σ :=
  steps.foldl (step fetch) r

variable {fetch : Fetch σ} {r : Runtime σ}

/-- Where all objects are loaded, their schemas are published. -/
theorem rebuild_of_loaded (hkinds : (r.cache.objects.map Prod.fst).Nodup) {found : Found}
    {behind : σ} (h : Loaded fetch r.backend r.cache.objects found behind) :
    ∃ documents s, compileAll found.maps.properties r.cache.config = .ok documents ∧
      Snapshot.build documents = .ok s ∧ s.initialized = true ∧ s.Consistent ∧
      r.rebuild fetch = (.ok s, ⟨{ r.cache with snapshot := s }, behind⟩) := by
  obtain ⟨documents, s, hcompiled, hbuilt, hsnapshot, hinit, hs⟩ :=
    exists_snapshotOf found.maps r.cache.config
  refine ⟨documents, s, hcompiled, hbuilt, hinit, hs, ?_⟩
  have hload := loadAll_of_loaded h
  rw [putAll_eq_maps (h.kinds ▸ hkinds)] at hload
  simp only [rebuild, Cache.rebuild, Cache.load, bind, StateT.bind, StateT.run, hload]
  simp only [hsnapshot]
  rfl

/-- Where an object cannot be loaded, it is named and the cache stays as it is. -/
theorem rebuild_of_fails {object : String} {fault : LoadFault} {behind : σ}
    (h : Fails fetch r.backend r.cache.objects object fault behind) :
    r.rebuild fetch = (.error (.load object fault), ⟨r.cache, behind⟩) := by
  simp only [rebuild, Cache.rebuild, Cache.load, bind, StateT.bind, StateT.run,
    loadAll_of_fails h]
  rfl

/-- What a rebuild does: it publishes the schemas of what was loaded, or it names the first object
that could not be loaded and changes nothing that can be read; there is no third way. -/
structure RebuildsAtomically (fetch : Fetch σ) (r : Runtime σ) : Prop where
  publishes {found : Found} {behind : σ}
    (h : Loaded fetch r.backend r.cache.objects found behind) :
    ∃ documents s, compileAll found.maps.properties r.cache.config = .ok documents ∧
      Snapshot.build documents = .ok s ∧
      r.rebuild fetch = (.ok s, ⟨{ r.cache with snapshot := s }, behind⟩)
  keeps {object : String} {fault : LoadFault} {behind : σ}
    (h : Fails fetch r.backend r.cache.objects object fault behind) :
    r.rebuild fetch = (.error (.load object fault), ⟨r.cache, behind⟩) ∧
      ∀ {α : Type} (q : Question α),
        q.answer (r.step fetch .rebuild).cache.snapshot = q.answer r.cache.snapshot
  decides : (∃ found behind, Loaded fetch r.backend r.cache.objects found behind) ∨
    ∃ object fault behind, Fails fetch r.backend r.cache.objects object fault behind

theorem rebuildsAtomically (hkinds : (r.cache.objects.map Prod.fst).Nodup) :
    r.RebuildsAtomically fetch where
  publishes h := by
    obtain ⟨documents, s, hcompiled, hbuilt, -, -, heq⟩ := rebuild_of_loaded hkinds h
    exact ⟨documents, s, hcompiled, hbuilt, heq⟩
  keeps h := by
    have heq := rebuild_of_fails h
    refine ⟨heq, fun q => ?_⟩
    rw [step, heq]
  decides := loaded_or_fault fetch _ _

/-- What holds in every state of a cache for some objects and mappings. -/
structure Sound (pairs : ManagedObjects) (config : MappingConfig) (r : Runtime σ) : Prop where
  objects : r.cache.objects = managedObjects pairs
  config : r.cache.config = config
  consistent : r.cache.snapshot.Consistent

section Sound

variable {pairs : ManagedObjects} {config : MappingConfig}

theorem sound_new (backend : σ) : (new pairs config backend).Sound pairs config :=
  ⟨rfl, rfl, Snapshot.consistent_empty⟩

theorem Sound.nodup_kinds (h : r.Sound pairs config) : (r.cache.objects.map Prod.fst).Nodup :=
  h.objects ▸ nodup_managedObjects pairs

/-- A step leaves the cache as it is, or it is a rebuild that publishes what it loaded. -/
theorem Sound.step_cases (h : r.Sound pairs config) (fetch : Fetch σ) (step : Step σ) :
    (r.step fetch step).cache = r.cache ∨
      step = .rebuild ∧ ∃ found behind s,
        Loaded fetch r.backend (managedObjects pairs) found behind ∧
        s.initialized = true ∧ s.Consistent ∧
        (r.step fetch .rebuild).cache = { r.cache with snapshot := s } := by
  cases step with
  | source backend => exact .inl rfl
  | read question => exact .inl rfl
  | rebuild =>
    rcases loaded_or_fault fetch r.cache.objects r.backend with
      ⟨found, behind, hloaded⟩ | ⟨object, fault, behind, hfails⟩
    · obtain ⟨documents, s, -, -, hinit, hs, heq⟩ := rebuild_of_loaded h.nodup_kinds hloaded
      refine .inr ⟨rfl, found, behind, s, h.objects ▸ hloaded, hinit, hs, ?_⟩
      rw [Runtime.step, heq]
    · left
      rw [Runtime.step, rebuild_of_fails hfails]

theorem Sound.step (h : r.Sound pairs config) (step : Step σ) :
    (r.step fetch step).Sound pairs config := by
  rcases h.step_cases fetch step with hsame | ⟨rfl, found, behind, s, -, -, hs, hnew⟩
  · exact ⟨hsame ▸ h.objects, hsame ▸ h.config, hsame ▸ h.consistent⟩
  · exact ⟨hnew ▸ h.objects, hnew ▸ h.config, hnew ▸ hs⟩

theorem Sound.run (h : r.Sound pairs config) (steps : List (Step σ)) :
    (r.run fetch steps).Sound pairs config := by
  induction steps generalizing r with
  | nil => exact h
  | cons step steps ih => exact ih (h.step step)

/-- What is published once stays published through any further steps. -/
theorem Sound.initialized_run (h : r.Sound pairs config)
    (hinit : r.cache.snapshot.initialized = true) (steps : List (Step σ)) :
    (r.run fetch steps).cache.snapshot.initialized = true := by
  induction steps generalizing r with
  | nil => exact hinit
  | cons step steps ih =>
    refine ih (h.step step) ?_
    rcases h.step_cases fetch step with hsame | ⟨rfl, found, behind, s, -, hs, -, hnew⟩
    · rwa [hsame]
    · rwa [hnew]

end Sound

/-- **Rebuilds are atomic in every run.** Whatever has happened to a new cache, its snapshot agrees
with itself; a rebuild publishes exactly the schemas of what it loaded or reports the first object
that failed and leaves every answer as it was; no other step changes the cache; and schemas that are
there never go away again. -/
theorem run_rebuilds_atomically (fetch : Fetch σ) (pairs : ManagedObjects)
    (config : MappingConfig) (backend : σ) (steps : List (Step σ)) :
    let r := (new pairs config backend).run fetch steps
    r.cache.objects = managedObjects pairs ∧ r.cache.config = config ∧
      r.cache.snapshot.Consistent ∧ r.RebuildsAtomically fetch ∧
      (∀ step, (r.step fetch step).cache ≠ r.cache → step = .rebuild ∧
        ∃ found behind, Loaded fetch r.backend (managedObjects pairs) found behind) ∧
      ∀ more, r.cache.snapshot.initialized = true →
        (r.run fetch more).cache.snapshot.initialized = true := by
  intro r
  have h : r.Sound pairs config := (sound_new backend).run steps
  refine ⟨h.objects, h.config, h.consistent, rebuildsAtomically h.nodup_kinds, ?_,
    fun more hinit => h.initialized_run hinit more⟩
  intro step hchanged
  rcases h.step_cases fetch step with hsame | ⟨hstep, found, behind, -, hloaded, -⟩
  · exact absurd hsame hchanged
  · exact ⟨hstep, found, behind, hloaded⟩

end Runtime

end Schema

end ScimBridge
