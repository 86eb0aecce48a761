import ScimBridge.Proofs.Schema.Sources
import ScimBridge.SchemaTool.Command

/-!
# Compiling offline and live

Schemas are compiled from a saved configuration or from the one that a backend answers with. Both
commands give the same for the same configuration, unless it is `Schema.Unlisted`
(`offline_agrees_iff`): the command for a live backend then shows the schemas without definitions,
and the one for saved configurations breaks down.
-/

namespace ScimBridge

namespace SchemaTool

open Backend

/-- What can be seen of a command without its complaint: the exit code and the output. -/
def seen (outcome : Except Breakdown Result) : Except Breakdown (Nat × String) :=
  outcome.map fun r => (r.exit, r.output)

/-- Without mappings, commands give the same but for the complaint. -/
theorem seen_withMappings_error (name name' : String) (e : MappingError)
    (go go' : MappingConfig → Run) (server : Server) :
    seen ((withMappings name (.error e) go).against server) =
      seen ((withMappings name' (.error e) go').against server) := by
  cases e <;> rfl

/-- The schemas are printed, or cannot be written. -/
theorem seen_schemaPage_ne (s : Schema.Snapshot) (baseUrl : String) (e : Schema.RebuildError) :
    seen (schemaPage s baseUrl) ≠ .error (.rebuild e) := by
  unfold schemaPage
  dsimp only
  split
  · exact fun h => nomatch h
  · exact fun h => nomatch h

section Compiled

variable {files : Files} {path : String} {members : Fields Value} {targets : Targets}
  {config : MappingConfig}

/-- The command for saved configurations, once it has read one. -/
theorem compile_object (hfile : readDocument files path = .ok (.object members))
    (mappings : Except MappingError MappingConfig) :
    compile files path targets mappings = withMappings "compile" mappings fun config =>
      .done (((Id.run (Schema.Cache.load (Schema.savedSource (.object members))
        { objects := targets.objects, config })).mapError .rebuild).bind fun s =>
          schemaPage s targets.baseUrl) := by
  unfold compile
  rw [hfile]
  rfl

/-- The command for a live backend, if a token is given. -/
theorem fetch_token {token : String} (htoken : token ≠ "") (env : Fields String) (address : String)
    (mappings : Except MappingError MappingConfig) :
    fetch env address (some token) targets mappings = withMappings "fetch" mappings fun config =>
      (Token.useStatic (.string token) givenLifetime).run.run (Client.ofVariables address env) >>=
        fun p => (Schema.Cache.load Schema.backendSource
          { objects := targets.objects, config }).run p.2 >>= fun q => match q.1 with
            | .ok s => return schemaPage s targets.baseUrl
            | .error (.load object fault) => return .ok (.failure "fetch" (fault.message object))
            | .error e => return .error (.rebuild e) := by
  unfold fetch
  rewrite [filledText?_eq_some_iff.2 ⟨rfl, htoken⟩]
  rfl

/-- A saved configuration that lists its objects, or lists nothing, is compiled. -/
theorem compile_of_listed (hfile : readDocument files path = .ok (.object members))
    (h : ∀ v, ¬Schema.Unlisted members v) {s : Schema.Snapshot}
    (hs : Schema.snapshotOf (Schema.gather (Schema.definitionsIn members) targets.objects {})
      config = .ok s) :
    compile files path targets (.ok config) = .done (schemaPage s targets.baseUrl) := by
  rw [compile_object hfile, withMappings, Schema.load_savedSource h, hs]
  rfl

/-- Any other saved configuration is not. -/
theorem compile_of_unlisted (hfile : readDocument files path = .ok (.object members)) {v : Value}
    (h : Schema.Unlisted members v) {p : ObjectKind × String} {rest : Schema.ManagedObjects}
    (hobjects : targets.objects = p :: rest) :
    compile files path targets (.ok config) =
      .done (.error (.rebuild (.load p.2 (.notAList v.kindName)))) := by
  rw [compile_object hfile, withMappings, Schema.load_savedSource_of_unlisted h hobjects]
  rfl

/-- What a backend answers with is compiled, whatever it lists. -/
theorem against_fetch {env : Fields String} {address token : String} {server : Server}
    (htoken : token ≠ "")
    (hserver : Schema.Serves server (Client.ofVariables address env).baseUrl members)
    {s : Schema.Snapshot}
    (hs : Schema.snapshotOf (Schema.gather (Schema.definitionsIn members) targets.objects {})
      config = .ok s) :
    (fetch env address (some token) targets (.ok config)).against server =
      schemaPage s targets.baseUrl := by
  let c : Client := { Client.ofVariables address env with
    token := .string token, deadline := some (3600 * Instant.perSecond) }
  have hgiven : (Token.useStatic (.string token) givenLifetime).run.run
      (Client.ofVariables address env) = .done (.ok ⟨⟩, c) :=
    Token.startedIn_useStatic _ _ _
  have hfilled : (Value.string token).filled = true := by simpa [Value.filled] using htoken
  have hahead : (0 : Instant) < 3600 * Instant.perSecond := by decide
  have hload := @Schema.against_load server c members ⟨hfilled, _, rfl, hahead⟩ hserver
    { objects := targets.objects, config }
  rw [hs] at hload
  rw [fetch_token htoken, withMappings, hgiven, Exchange.done_bind_eq, Exchange.against_bind, hload]
  rfl

end Compiled

/-- **Offline and live compilation.** A configuration is saved in a file, and a backend answers with
it whenever it is asked for it. Whatever mappings are wanted, compiling the file and fetching from
the backend give the same exit code and the same output, unless the mappings can be used and the
configuration holds something without parts in place of its list of objects. Then fetching prints
the schemas without any definitions, and compiling breaks down. -/
theorem offline_agrees_iff {env : Fields String} {files : Files} (mappings : Option String)
    {path address token : String} {targets : Targets} {server : Server} {members : Fields Value}
    (hfile : readDocument files path = .ok (.object members))
    (hserver : Schema.Serves server (Client.ofVariables address env).baseUrl members)
    (htoken : token ≠ "") (hobjects : targets.objects ≠ []) :
    let compiled : Invocation := ⟨mappings, .compile path targets⟩
    let fetched : Invocation := ⟨mappings, .fetch address (some token) targets⟩
    let offline := (compiled.run env files).against server
    let live := (fetched.run env files).against server
    (seen offline = seen live ↔ ∀ config, compiled.config env files = .ok config →
      ∀ v, ¬Schema.Unlisted members v) ∧
    ∀ config, compiled.config env files = .ok config → ∀ v, Schema.Unlisted members v →
      (∃ s, Schema.snapshotOf {} config = .ok s ∧ live = schemaPage s targets.baseUrl) ∧
        ∃ object ∈ targets.objects,
          offline = .error (.rebuild (.load object.2 (.notAList v.kindName))) := by
  intro compiled fetched offline live
  have hoffline : offline =
      (compile files path targets (compiled.config env files)).against server := rfl
  have hlive : live =
      (fetch env address (some token) targets (compiled.config env files)).against server := rfl
  -- the configuration is a document, as the backend can answer with it
  obtain ⟨_, _, -, -, hdocument⟩ := hserver { method := "GET", url := _ } rfl rfl
  have hshown (config : MappingConfig) (hconfig : compiled.config env files = .ok config) :
      ∃ s, Schema.snapshotOf (Schema.gather (Schema.definitionsIn members) targets.objects {})
        config = .ok s ∧ live = schemaPage s targets.baseUrl := by
    obtain ⟨s, hs⟩ := Schema.exists_snapshotOf_definitions (isOrderly_ofDocument hdocument)
      targets.objects config
    exact ⟨s, hs, by rw [hlive, hconfig, against_fetch htoken hserver hs]⟩
  have hbroken (config : MappingConfig) (hconfig : compiled.config env files = .ok config)
      (v : Value) (hv : Schema.Unlisted members v) : ∃ object ∈ targets.objects,
        offline = .error (.rebuild (.load object.2 (.notAList v.kindName))) := by
    obtain ⟨p, rest, hp⟩ := List.exists_cons_of_ne_nil hobjects
    refine ⟨p, hp ▸ List.mem_cons_self, ?_⟩
    rw [hoffline, hconfig, compile_of_unlisted hfile hv hp]
    rfl
  refine ⟨⟨fun heq config hconfig v hv => ?_, fun h => ?_⟩, fun config hconfig v hv => ?_⟩
  · obtain ⟨s, -, hpage⟩ := hshown config hconfig
    obtain ⟨object, -, hfailed⟩ := hbroken config hconfig v hv
    rw [hfailed, hpage] at heq
    exact seen_schemaPage_ne s _ _ heq.symm
  · cases hconfig : compiled.config env files with
    | error e =>
      rw [hoffline, hlive, hconfig, compile_object hfile, fetch_token htoken]
      exact seen_withMappings_error _ _ e _ _ server
    | ok config =>
      obtain ⟨s, hs, hpage⟩ := hshown config hconfig
      rw [hpage, hoffline, hconfig, compile_of_listed hfile (h config hconfig) hs]
      rfl
  · obtain ⟨s, hs, hpage⟩ := hshown config hconfig
    rw [Schema.gather_of_unlisted hv] at hs
    exact ⟨⟨s, hs, hpage⟩, hbroken config hconfig v hv⟩

/-- What is compiled unless a deployment says otherwise. -/
def usualTargets : Targets := ⟨Schema.usualObjects, "/scim/v2"⟩

/-- The outcome for a document in a file. -/
def offlineFor (document : String) : Except Breakdown Result :=
  (Invocation.run ⟨none, .compile "managed.json" usualTargets⟩ []
    [("managed.json", document)]).against fun _ => .response 200 document

/-- The outcome for a backend that answers with a document. -/
def liveFor (document : String) : Except Breakdown Result :=
  (Invocation.run ⟨none, .fetch "http://idm.test" (some "t") usualTargets⟩ []
    [("managed.json", document)]).against fun _ => .response 200 document

section Fixed

variable {document : String} {members : Fields Value}

theorem readDocument_managed
    (hread : Files.read [("managed.json", document)] "managed.json" = .ok document)
    (hdocument : Value.ofDocument document = .ok (.object members)) :
    readDocument [("managed.json", document)] "managed.json" = .ok (.object members) := by
  have hyaml : MappingConfig.isYamlFile "managed.json" = false := by decide +kernel
  unfold readDocument MappingConfig.readText
  rw [hread, hyaml]
  exact hdocument

theorem serves_document (hdocument : Value.ofDocument document = .ok (.object members)) :
    Schema.Serves (fun _ => .response 200 document)
      (Client.ofVariables "http://idm.test" []).baseUrl members :=
  fun _ _ _ => ⟨200, document, rfl, by decide, hdocument⟩

end Fixed

/-- A text in place of the list stands for no objects. -/
theorem offline_agrees_on_text :
    seen (offlineFor "\x7b\"objects\": \"alpha_user\"\x7d") =
      seen (liveFor "\x7b\"objects\": \"alpha_user\"\x7d") := by
  have hdocument : Value.ofDocument "\x7b\"objects\": \"alpha_user\"\x7d" =
      .ok (.object [("objects", .string "alpha_user")]) := rfl
  have htext : Value.filled? [("objects", .string "alpha_user")] "objects" =
      some (.string "alpha_user") := rfl
  have htoken : "t" ≠ "" := by decide
  have hobjects : usualTargets.objects ≠ [] := List.cons_ne_nil _ _
  refine (offline_agrees_iff none (readDocument_managed (by decide +kernel) hdocument)
    (serves_document hdocument) htoken hobjects).1.2 fun config _ v hv => ?_
  obtain ⟨hv, hparts⟩ := hv
  cases htext.symm.trans hv
  cases hparts

/-- With a number in place of the list, a saved configuration cannot be compiled. -/
theorem offline_breaks_on_number :
    offlineFor "\x7b\"objects\": 5\x7d" =
        .error (.rebuild (.load "alpha_user" (.notAList "int"))) ∧
      ∃ output, seen (liveFor "\x7b\"objects\": 5\x7d") = .ok (0, output) := by
  have hdocument : Value.ofDocument "\x7b\"objects\": 5\x7d" =
      .ok (.object [("objects", .int 5)]) := rfl
  have hunlisted : Schema.Unlisted [("objects", .int 5)] (.int 5) := ⟨rfl, rfl⟩
  have hoffline : offlineFor "\x7b\"objects\": 5\x7d" =
      (compile [("managed.json", "\x7b\"objects\": 5\x7d")] "managed.json" usualTargets
        (.ok .empty)).against fun _ => .response 200 "\x7b\"objects\": 5\x7d" := rfl
  have hlive : liveFor "\x7b\"objects\": 5\x7d" =
      (fetch [] "http://idm.test" (some "t") usualTargets (.ok .empty)).against
        fun _ => .response 200 "\x7b\"objects\": 5\x7d" := rfl
  have hwritable : ((Schema.snapshotOf {} .empty).toOption.map fun s =>
      (Value.array (s.list.map fun d => d.toValue usualTargets.baseUrl)).isWritable) =
        some true := by
    decide +kernel
  obtain ⟨s, hs, hpage⟩ := Option.map_eq_some_iff.1 hwritable
  have hfound := Schema.gather_of_unlisted hunlisted usualTargets.objects ▸ eq_ok_of_toOption hs
  constructor
  · rw [hoffline, compile_of_unlisted (readDocument_managed (by decide +kernel) hdocument)
      hunlisted rfl]
    rfl
  · rw [hlive, against_fetch (by decide) (serves_document hdocument) hfound, schemaPage,
      if_pos hpage]
    exact ⟨_, rfl⟩

end SchemaTool

end ScimBridge
