import ScimBridge.Proofs.Backend.Discipline
import ScimBridge.Proofs.Backend.Server
import ScimBridge.Proofs.Schema.Loading

/-!
# One configuration from two sources

A configuration of managed objects may be saved, or a backend may answer with it. `definitionsIn`
says what it defines for an object. A server that `Serves` the configuration lets all of this be
loaded (`against_load`), and so does the saved document (`load_savedSource`), unless it is
`Unlisted`: in place of its list of objects there may be something that cannot be gone through, such
as a number. A backend's configuration then counts as one without objects, but a saved one cannot be
loaded (`load_savedSource_of_unlisted`).

What is loaded stands in a document, so that schemas can always be made of it
(`exists_snapshotOf_definitions`).
-/

namespace ScimBridge

namespace Schema

open Backend

/-! ## What a configuration defines -/

/-- The property definitions that a configuration has for an object. -/
def definitionsIn (members : Fields Value) (object : String) : Option (Fields Value) :=
  (ManagedConfig.find? members (.string object)).bind fun entry =>
    ManagedConfig.properties? (.object entry)

/-- The definitions of some objects, kept one after the other. -/
def gather (definitions : String → Option (Fields Value)) (objects : ManagedObjects)
    (found : Properties) : Properties :=
  objects.foldl (fun found p => found.put p.1 (definitions p.2)) found

theorem distinct_gather {members : Fields Value} (h : (Value.object members).IsOrderly)
    (objects : ManagedObjects) {found : Properties} (hfound : found.Distinct) :
    (gather (definitionsIn members) objects found).Distinct := by
  induction objects generalizing found with
  | nil => exact hfound
  | cons p rest ih =>
    refine ih (hfound.put p.1 fun fields hfields => ?_)
    obtain ⟨entry, hentry, hproperties⟩ := Option.bind_eq_some_iff.1 hfields
    exact ManagedConfig.nodup_properties? (ManagedConfig.isOrderly_find? h hentry) hproperties

/-- Schemas can be made of what a configuration defines. -/
theorem exists_snapshotOf_definitions {members : Fields Value}
    (h : (Value.object members).IsOrderly) (objects : ManagedObjects) (config : MappingConfig) :
    ∃ s, snapshotOf (gather (definitionsIn members) objects {}) config = .ok s := by
  have hempty : Properties.Distinct {} := ⟨by simp, by simp⟩
  obtain ⟨s, hs, -⟩ := exists_snapshotOf_of_distinct (distinct_gather h objects hempty) config
  exact ⟨s, hs⟩

/-! ## A backend with a configuration -/

/-- The server answers with the configuration whenever it is asked for it. -/
def Serves (server : Server) (baseUrl : String) (members : Fields Value) : Prop :=
  ∀ r : Request, r.method = "GET" → r.url = baseUrl ++ ManagedConfig.path →
    Tells (server r) members

section Backend

variable {server : Server} {c : Client} {members : Fields Value} (hlive : c.IsLive)
  (hserver : Serves server c.baseUrl members)

include hlive hserver

theorem against_managedConfig :
    (startedIn ManagedConfig.fetch c).against server = (.ok (some members), c) := by
  obtain ⟨status, text, hanswer, hstatus, hdocument⟩ :=
    hserver (bearing c "GET" ManagedConfig.path {} c.token) rfl rfl
  have hrequest : (startedIn (request "GET" ManagedConfig.path {} none) c).against server =
      (.ok (status, text), c) := by
    rw [startedIn_request_of_isLive _ _ _ rfl hlive, Exchange.against_once, hanswer, received,
      if_neg (Int.not_le.2 hstatus)]
  unfold ManagedConfig.fetch
  rw [against_bind_ok (against_tryCatch_ok (against_map_ok hrequest some) _)]
  dsimp only
  rw [startedIn_bind, startedIn_readDocument, documentIn, hdocument]
  rfl

theorem against_backendSource (object : String) :
    ((backendSource object).run c).against server = (.ok (definitionsIn members object), c) := by
  have hentry : (startedIn (ManagedConfig.fetchEntry (.string object)) c).against server =
      (.ok (ManagedConfig.find? members (.string object)), c) := by
    unfold ManagedConfig.fetchEntry
    rw [against_bind_ok (against_managedConfig hlive hserver)]
    rfl
  rw [run_backendSource, Exchange.against_bind, hentry]
  rfl

/-- Everything that the configuration defines is loaded. -/
theorem against_loadAll (objects : ManagedObjects) (found : Properties) :
    ((loadAll backendSource objects found).run c).against server =
      (.ok (gather (definitionsIn members) objects found), c) := by
  induction objects generalizing found with
  | nil => rfl
  | cons p rest ih =>
    rw [run_loadAll_cons, Exchange.against_bind, against_backendSource hlive hserver]
    exact ih _

theorem against_load (cache : Cache) :
    ((cache.load backendSource).run c).against server =
      (snapshotOf (gather (definitionsIn members) cache.objects {}) cache.config, c) := by
  unfold Cache.load
  rw [StateT.run_bind, Exchange.against_bind, against_loadAll hlive hserver]
  rfl

end Backend

/-! ## A saved configuration -/

/-- The values that have parts to go through. -/
def hasParts : Value → Bool
  | .string _ | .array _ | .object _ | .table _ => true
  | _ => false

/-- In place of its list of objects, a configuration holds a value that is filled in but has no
parts: a number, true or a moment. -/
def Unlisted (members : Fields Value) (v : Value) : Prop :=
  Value.filled? members "objects" = some v ∧ hasParts v = false

/-- The entries of the objects that a configuration lists. -/
def entriesIn (members : Fields Value) : List (Fields Value) :=
  match members.get? "objects" with
  | some (.array items) => items.filterMap Value.members?
  | _ => []

section Saved

variable {members : Fields Value}

theorem find?_eq_find?_entriesIn (object : String) :
    ManagedConfig.find? members (.string object) =
      (entriesIn members).find? fun e => (e.get? "name").any (· == .string object) := by
  -- an entry without a name has the name null, which is no object's
  have hname (e : Fields Value) : ((e.get? "name").getD .null == .string object) =
      (e.get? "name").any (· == .string object) := by
    cases e.get? "name" with
    | none =>
      change Value.same _ _ = false
      simp [Value.same, Value.whole?]
    | some v => rfl
  unfold ManagedConfig.find? entriesIn
  cases members.get? "objects" with
  | none => rfl
  | some v =>
    cases v with
    | array items => exact congrArg (List.find? · _) (funext hname)
    | _ => rfl

theorem savedEntries_of_unlisted {v : Value} (h : Unlisted members v) :
    savedEntries (.object members) = .error (.notAList v.kindName) := by
  obtain ⟨hv, hparts⟩ := h
  unfold savedEntries
  dsimp only [Value.members?]
  rw [hv]
  cases v with
  | string s => cases hparts
  | array items => cases hparts
  | object members => cases hparts
  | table entries => cases hparts
  | _ => rfl

/-- A value with parts that is no list lists nothing, and neither does one that is not filled in. -/
theorem savedEntries_of_listed (h : ∀ v, ¬Unlisted members v) :
    savedEntries (.object members) = .ok (entriesIn members) := by
  unfold savedEntries entriesIn
  dsimp only [Value.members?]
  cases hvalue : members.get? "objects" with
  | none => rw [Value.filled?, hvalue, Option.filter_none]
  | some v =>
    cases hfilled : v.filled with
    | false =>
      rw [Value.filled?, hvalue, Option.filter_some_neg hfilled]
      cases v with
      | array items =>
        cases items with
        | nil => rfl
        | cons item items => cases hfilled
      | _ => rfl
    | true =>
      have hsome : Value.filled? members "objects" = some v := by
        rw [Value.filled?, hvalue, Option.filter_some_pos hfilled]
      rw [hsome]
      cases v with
      | string s => rfl
      | array items => rfl
      | object members => rfl
      | table entries => rfl
      | _ => exact absurd ⟨hsome, rfl⟩ (h _)

theorem savedSource_of_listed (h : ∀ v, ¬Unlisted members v) (object : String) :
    savedSource (m := Id) (.object members) object = pure (.ok (definitionsIn members object)) := by
  unfold savedSource definitionsIn
  rw [savedEntries_of_listed h, find?_eq_find?_entriesIn]
  rfl

/-- Everything that a saved document defines is loaded. -/
theorem loadAll_savedSource (h : ∀ v, ¬Unlisted members v) (objects : ManagedObjects)
    (found : Properties) :
    Id.run (loadAll (savedSource (.object members)) objects found) =
      .ok (gather (definitionsIn members) objects found) := by
  induction objects generalizing found with
  | nil => rfl
  | cons p rest ih =>
    unfold loadAll
    rw [savedSource_of_listed h]
    exact ih _

theorem load_savedSource (h : ∀ v, ¬Unlisted members v) (cache : Cache) :
    Id.run (cache.load (savedSource (.object members))) =
      snapshotOf (gather (definitionsIn members) cache.objects {}) cache.config := by
  unfold Cache.load
  rw [Id.run_bind, loadAll_savedSource h]
  rfl

/-- Without a list, not even the first object is loaded. -/
theorem load_savedSource_of_unlisted {v : Value} (h : Unlisted members v) {cache : Cache}
    {p : ObjectKind × String} {rest : ManagedObjects} (hobjects : cache.objects = p :: rest) :
    Id.run (cache.load (savedSource (.object members))) =
      .error (.load p.2 (.notAList v.kindName)) := by
  unfold Cache.load
  rw [hobjects]
  unfold loadAll savedSource
  rw [savedEntries_of_unlisted h]
  rfl

/-- Without a list nothing is defined. -/
theorem definitionsIn_of_unlisted {v : Value} (h : Unlisted members v) (object : String) :
    definitionsIn members object = none := by
  obtain ⟨hv, hparts⟩ := h
  obtain ⟨hvalue, -⟩ := Option.filter_eq_some_iff.1 hv
  unfold definitionsIn ManagedConfig.find?
  rw [hvalue]
  cases v with
  | array items => cases hparts
  | _ => rfl

/-- Without a list nothing is found. -/
theorem gather_of_unlisted {v : Value} (h : Unlisted members v) (objects : ManagedObjects) :
    gather (definitionsIn members) objects {} = {} := by
  have hput (kind : ObjectKind) : Properties.put {} kind none = {} := by cases kind <;> rfl
  induction objects with
  | nil => rfl
  | cons p rest ih =>
    unfold gather at ih ⊢
    rw [List.foldl_cons, definitionsIn_of_unlisted h, hput, ih]

end Saved

end Schema

end ScimBridge
