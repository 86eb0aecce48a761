import ScimBridge.Proofs.Filter.Query
import ScimBridge.Proofs.Patch.Coverage
import ScimBridge.Proofs.Patch.Requests

/-!
# Core attributes behind the name of their schema

A core attribute may be spelled behind the name of its schema. To a patch both spellings are the same
(`convert_core_spelling`). A filter looks a spelling up as it stands, and no core attribute is listed
behind the name of its schema: there the name stays what it is, and so do the values, and the two
spellings ask the backend for different things, whatever surrounds them (`core_spellings`).
-/

namespace ScimBridge

/-- A path of the core schema behind the name of the schema. -/
def coreSpelling (path : String) : String := Urn.coreUser ++ ":" ++ path

theorem colon_mem_coreSpelling (path : String) : ':' ∈ (coreSpelling path).toList := by
  simp [coreSpelling]

theorem coreSpelling_ne_empty (path : String) : coreSpelling path ≠ "" := by
  intro heq
  have hmem := colon_mem_coreSpelling path
  rw [heq] at hmem
  cases hmem

/-- A path that can stand in a filter and in which no schema is named. -/
structure CorePath (path : String) : Prop where
  isPath : Comparison.IsPath path.toList
  unnamed : ∀ urn ∈ Patch.schemas, ¬ urn.toList <+: path.toList

namespace CorePath

variable {path : String} (h : CorePath path)

include h

theorem ne_empty : path ≠ "" := by
  rintro rfl
  obtain ⟨c, rest, hcons, -⟩ := h.isPath
  cases hcons

theorem isPathChar_of_mem : ∀ ch ∈ path.toList, Comparison.isPathChar ch = true :=
  (Query.isName_of_isPath h.isPath).2

theorem isPathChar_of_mem_spelling :
    ∀ ch ∈ (coreSpelling path).toList, Comparison.isPathChar ch = true := by
  have hurn : ∀ ch ∈ (Urn.coreUser ++ ":").toList, Comparison.isPathChar ch = true :=
    List.all_eq_true.1 (by decide)
  intro ch hch
  rw [coreSpelling, String.toList_append] at hch
  exact (List.mem_append.1 hch).elim (hurn ch) (h.isPathChar_of_mem ch)

end CorePath

/-- The usual paths of users can be spelled both ways. -/
theorem corePath_of_usual {entry : String × String} (h : entry ∈ Filter.PathTable.usualUser) :
    CorePath entry.1 where
  isPath := by
    have hspan := (by decide +kernel : ∀ entry ∈ Filter.PathTable.usualUser,
      Comparison.spanPath? entry.1.toList = some (entry.1.toList, [])) entry h
    exact (Comparison.spanPath?_eq_some_iff.1 hspan).2.1
  unnamed := (by decide : ∀ entry ∈ Filter.PathTable.usualUser, ∀ urn ∈ Patch.schemas,
    ¬ urn.toList <+: entry.1.toList) entry h

/-! ## Filters -/

namespace Filter

/-- A test of a path: that it is present, or how it compares with a value. -/
def testOf (path : String) : Option (String × String) → Filter
  | none => .present path
  | some (op, value) => .compare path op value

/-- The text of a test whose name and value stay as they are. -/
def testText (path : String) : Option (String × String) → String
  | none => path ++ " pr"
  | some (op, value) => path ++ " " ++ op ++ " " ++ Literal.render value

/-- One step out of a filter into the one that it is part of. -/
inductive Frame where
  | not
  | left (w : Connective) (right : Filter)
  | right (w : Connective) (left : Filter)

/-- The filter that a frame makes of its part. -/
def Frame.around : Frame → Filter → Filter
  | .not, f => .not f
  | .left w r, f => w.join f r
  | .right w l, f => w.join l f

/-- A filter with what surrounds it, the innermost frame first. -/
def inside (frames : List Frame) (f : Filter) : Filter :=
  frames.foldl (fun inner frame => frame.around inner) f

variable {table : PathTable} {f g : Filter}

theorem isChain_around (frame : Frame) (f g : Filter) :
    (frame.around f).isChain = (frame.around g).isChain := by
  cases frame with
  | not => rfl
  | left w r | right w r => cases w <;> rfl

/-- The text of a frame has the text of its part in it. -/
theorem queryText_around_inj (frame : Frame) (h : f.isChain = g.isChain) :
    (frame.around f).queryText table = (frame.around g).queryText table ↔
      f.queryText table = g.queryText table := by
  cases frame with
  | not =>
    simp only [Frame.around, queryText, h]
    split <;> simp only [String.append_left_inj, String.append_right_inj]
  | left w r =>
    cases w <;> simp only [Frame.around, Connective.join, queryText, String.append_left_inj,
      String.append_right_inj]
  | right w l =>
    cases w <;> simp only [Frame.around, Connective.join, queryText, String.append_left_inj,
      String.append_right_inj]

theorem queryText_inside_inj (frames : List Frame) (h : f.isChain = g.isChain) :
    (inside frames f).queryText table = (inside frames g).queryText table ↔
      f.queryText table = g.queryText table := by
  induction frames generalizing f g with
  | nil => exact Iff.rfl
  | cons frame frames ih =>
    exact (ih (isChain_around frame f g)).trans (queryText_around_inj frame h)

theorem isChain_testOf (path : String) (test : Option (String × String)) :
    (testOf path test).isChain = false := by
  cases test <;> rfl

/-- The text of a test begins with the backend's name. -/
theorem exists_queryText_testOf (table : PathTable) (path : String) (test : Option (String × String)) :
    ∃ rest, ((testOf path test).queryText table).toList =
      (table.name path).toList ++ ' ' :: rest := by
  cases test with
  | none => exact ⟨['p', 'r'], by simp [testOf, queryText, presenceText]⟩
  | some t => exact ⟨_, by simp [testOf, queryText, comparisonText]; rfl⟩

/-- Behind the name of the core schema, nothing is changed where the table has no such entry. -/
theorem queryText_core_spelling {path : String} (hnone : table.get? (coreSpelling path) = none)
    (test : Option (String × String)) :
    (testOf (coreSpelling path) test).queryText table = testText (coreSpelling path) test := by
  have hname : table.name (coreSpelling path) = coreSpelling path := by
    rw [PathTable.name, hnone, Option.getD_none]
  have hstatus : coreSpelling path ≠ Literal.statusPath := by
    intro heq
    have hcolon := colon_mem_coreSpelling path
    rw [heq] at hcolon
    exact absurd hcolon (by decide)
  cases test with
  | none => rw [testOf, queryText, presenceText, hname, testText]
  | some t => rw [testOf, queryText, comparisonText, hname, Literal.ofValue, if_neg hstatus, testText]

/-- The table lists what some mapping spells, and usual paths without the name of a schema. -/
theorem get?_core_spelling {config : MappingConfig} {path : String}
    (h : ∀ m ∈ config.mappings, coreSpelling path ≠ m.path ∧ coreSpelling path ≠ m.qualifiedPath) :
    (PathTable.user config).get? (coreSpelling path) = none := by
  rw [PathTable.user_eq, Fields.get?_putAll, Option.or_eq_none_iff, Fields.get?_eq_none_iff,
    Fields.get?_eq_none_iff]
  constructor
  · intro hmem
    obtain ⟨entry, hentry, heq⟩ := List.mem_map.1 hmem
    obtain ⟨m, hm, hspelled, -⟩ := PathTable.mem_mapped.1 (List.mem_reverse.1 hentry)
    rw [heq] at hspelled
    exact hspelled.elim (h m hm).1 (h m hm).2
  · intro hmem
    exact (by decide : ∀ name ∈ Fields.keys PathTable.usualUser, ':' ∉ name.toList) _ hmem
      (colon_mem_coreSpelling path)

/-- The two spellings of a path differ at the backend, where its name is not a longer form of the
spelling. -/
theorem queryText_core_spelling_ne {path : String} (hpath : CorePath path)
    (hnone : table.get? (coreSpelling path) = none) {name : String}
    (hname : table.get? path = some name) (hlonger : ¬ (coreSpelling path).toList <+: name.toList)
    (test : Option (String × String)) :
    (testOf (coreSpelling path) test).queryText table ≠ (testOf path test).queryText table := by
  intro heq
  obtain ⟨rest, hrest⟩ := exists_queryText_testOf table (coreSpelling path) test
  obtain ⟨rest', hrest'⟩ := exists_queryText_testOf table path test
  rw [heq, hrest', PathTable.name, PathTable.name, hname, hnone, Option.getD_some,
    Option.getD_none] at hrest
  -- both texts have a space behind their name, and there is none in the spelling
  have hspace : ' ' ∉ (coreSpelling path).toList := fun hmem =>
    absurd (hpath.isPathChar_of_mem_spelling _ hmem) (by decide)
  exact hlonger (prefix_before_separator ⟨_, hrest.symm⟩ hspace)

end Filter

/-! ## Patches -/

namespace Patch

/-- The characters of paths are neither slashes nor blanks. -/
theorem bare_of_isPathChar {path : String}
    (h : ∀ ch ∈ path.toList, Comparison.isPathChar ch = true) : Bare path := by
  refine bare_of_forall fun ch hch => ⟨?_, ?_⟩
  · rintro rfl
    exact absurd (h _ hch) (by decide +kernel)
  · cases hblank : isBlank ch with
    | false => rfl
    | true => exact absurd (h ch hch) (by simp [Comparison.isPathChar_of_isBlank hblank])

theorem target_core_spelling (path : String) :
    Target.of (coreSpelling path) = ⟨some Urn.coreUser, path⟩ :=
  Converter.target_named (by decide) path

namespace Converter

section

variable {c : Converter} {a b : String} (hplain : (Target.of a).plain = (Target.of b).plain)
  (ha : (Target.of a).schema ≠ some Urn.enterpriseUser)
  (hb : (Target.of b).schema ≠ some Urn.enterpriseUser)

include hplain ha hb

theorem documentAt_congr (verb : Verb) (v : Value) : documentAt verb a v = documentAt verb b v := by
  unfold documentAt
  simp only [hplain, if_neg ha, if_neg hb]

theorem fieldsFor_congr :
    (c.fieldsFor a).mapError Fault.scimType = (c.fieldsFor b).mapError Fault.scimType := by
  rw [fieldsFor_outside ha, fieldsFor_outside hb, hplain]
  split <;> rfl

/-- Outside groups and the extension, what a path becomes depends on the names in it alone. -/
theorem operations_congr (htype : c.type ≠ .group) (hna : a ≠ "") (hnb : b ≠ "") (verb : Verb)
    (v : Value) : (c.operations verb a v).mapError Fault.scimType =
      (c.operations verb b v).mapError Fault.scimType := by
  have hwriting : verb ≠ .remove → v ≠ .null →
      (c.operations verb a v).mapError Fault.scimType =
        (c.operations verb b v).mapError Fault.scimType := by
    intro hverb hv
    rw [operations_writing (isMembersPath_eq_false htype) hna hverb hv,
      operations_writing (isMembersPath_eq_false htype) hnb hverb hv]
    unfold attributeOperations
    rw [documentAt_congr hplain ha hb]
    cases documentAt verb b v with
    | error fault => rfl
    | ok document =>
      simp only [bind, Except.bind]
      cases c.attributesOf document <;> rfl
  cases verb with
  | remove =>
    unfold operations
    rw [if_neg hna, if_neg hnb, isMembersPath_eq_false htype, isMembersPath_eq_false htype]
    show ((c.fieldsFor a).map _).mapError _ = ((c.fieldsFor b).map _).mapError _
    rw [mapError_map, mapError_map, fieldsFor_congr hplain ha hb]
  | add | replace =>
    by_cases hv : v = .null
    · rw [hv]
      rfl
    · exact hwriting (by decide) hv

end

/-- An entry with the name of the schema in front of its path becomes what it becomes without. -/
theorem convert_core_spelling {c : Converter} (htype : c.type ≠ .group) {path : String}
    (h : CorePath path) (fields : Fields Value) :
    (c.convert (request [.object (fields.put "path" (.string (coreSpelling path)))])).mapError
        Fault.scimType =
      (c.convert (request [.object (fields.put "path" (.string path))])).mapError
        Fault.scimType := by
  have hverb : ∀ v, verbOf (fields.put "path" v) = verbOf fields := fun v => by
    unfold verbOf
    rw [Fields.get?_put_of_ne _ _ (by decide)]
  have hvalue : ∀ v, (fields.put "path" v).get? "value" = fields.get? "value" := fun v =>
    Fields.get?_put_of_ne _ _ (by decide)
  have hpath : ∀ path, Bare path → pathOf (fields.put "path" (.string path)) = .ok path :=
    fun path hbare => pathOf_of_get? hbare (Fields.get?_put_self _ _ _)
  have hplain : (Target.of (coreSpelling path)).plain = (Target.of path).plain := by
    rw [target_core_spelling, target_of_unnamed h.unnamed]
    rfl
  rw [convert_single, convert_single]
  cases hentry : verbOf fields with
  | error fault =>
    unfold entryOperations
    simp only [hverb, hentry]
    rfl
  | ok verb =>
    rw [entryOperations_of ((hverb _).trans hentry)
        (hpath _ (bare_of_isPathChar h.isPathChar_of_mem_spelling)),
      entryOperations_of ((hverb _).trans hentry) (hpath _ (bare_of_isPathChar h.isPathChar_of_mem)),
      hvalue, hvalue]
    refine operations_congr hplain ?_ ?_ htype (coreSpelling_ne_empty path) h.ne_empty verb _
    · rw [target_core_spelling]
      exact fun heq => absurd (Option.some.inj heq) (by decide)
    · rw [target_of_unnamed h.unnamed]
      exact Option.some_ne_none _ ∘ Eq.symm

end Converter

open Converter

/-- **The two spellings of a core attribute.** A patch becomes the same under both, or is refused for
the same reason. Filters with a test of either spelling, the same things around it, become the same iff
the tests do. Where no mapping lists the longer spelling, its test keeps its name and its value, so
that the filters become different ones unless the backend's name of the attribute begins with the
longer spelling. -/
theorem core_spellings (collections : Collections) (config : MappingConfig) {path : String}
    (hpath : CorePath path) :
    (∀ fields : Fields Value,
      ((ofUsers collections config).convert
          (request [.object (fields.put "path" (.string (coreSpelling path)))])).mapError
            Fault.scimType =
        ((ofUsers collections config).convert
          (request [.object (fields.put "path" (.string path))])).mapError Fault.scimType) ∧
    ∀ (frames : List Filter.Frame) (test : Option (String × String)) (long short : String),
      Filter.parse long = .ok (Filter.inside frames (.testOf (coreSpelling path) test)) →
      Filter.parse short = .ok (Filter.inside frames (.testOf path test)) →
      (Filter.translate (.user config) (some long) = Filter.translate (.user config) (some short) ↔
        (Filter.testOf (coreSpelling path) test).queryText (.user config) =
          (Filter.testOf path test).queryText (.user config)) ∧
      ((∀ m ∈ config.mappings,
          coreSpelling path ≠ m.path ∧ coreSpelling path ≠ m.qualifiedPath) →
        (Filter.testOf (coreSpelling path) test).queryText (.user config) =
          Filter.testText (coreSpelling path) test ∧
        ∀ name, (Filter.PathTable.user config).get? path = some name →
          ¬ (coreSpelling path).toList <+: name.toList →
            Filter.translate (.user config) (some long) ≠
              Filter.translate (.user config) (some short)) := by
  refine ⟨convert_core_spelling type_ofUsers_ne_group hpath,
    fun frames test long short hlong hshort => ?_⟩
  have hiff : Filter.translate (.user config) (some long) =
      Filter.translate (.user config) (some short) ↔
        (Filter.testOf (coreSpelling path) test).queryText (.user config) =
          (Filter.testOf path test).queryText (.user config) := by
    rw [Filter.translate_of_parse _ hlong, Filter.translate_of_parse _ hshort, Except.ok.injEq]
    refine Filter.queryText_inside_inj frames ?_
    rw [Filter.isChain_testOf, Filter.isChain_testOf]
  refine ⟨hiff, fun hunlisted => ?_⟩
  have hnone := Filter.get?_core_spelling hunlisted
  refine ⟨Filter.queryText_core_spelling hnone test, fun name hname hlonger heq => ?_⟩
  exact Filter.queryText_core_spelling_ne hpath hnone hname hlonger test (hiff.1 heq)

/-- Inside a negation and a chain, the status is sought under a name that the backend does not know,
and with a truth value instead of its word. -/
theorem core_spellings_status :
    ((ofUsers {} .empty).convert (request [.object [("op", .string "replace"),
        ("value", .bool false), ("path", .string (coreSpelling "active"))]])).mapError
          Fault.scimType =
      ((ofUsers {} .empty).convert (request [.object [("op", .string "replace"),
        ("value", .bool false), ("path", .string "active")]])).mapError Fault.scimType ∧
    Filter.translate (.user .empty)
        (some "not (urn:ietf:params:scim:schemas:core:2.0:User:active eq true) and title pr") ≠
      Filter.translate (.user .empty) (some "not (active eq true) and title pr") := by
  have hpath : CorePath "active" :=
    corePath_of_usual (by decide : ("active", "accountStatus") ∈ Filter.PathTable.usualUser)
  obtain ⟨hpatch, hfilter⟩ := core_spellings {} .empty hpath
  refine ⟨hpatch [("op", .string "replace"), ("value", .bool false)], ?_⟩
  have hlong : Filter.parse
      "not (urn:ietf:params:scim:schemas:core:2.0:User:active eq true) and title pr" =
        .ok (Filter.inside [.not, .left .and (.present "title")]
          (.testOf (coreSpelling "active") (some ("eq", "true")))) :=
    eq_ok_of_toOption (by decide +kernel)
  have hshort : Filter.parse "not (active eq true) and title pr" =
      .ok (Filter.inside [.not, .left .and (.present "title")]
        (.testOf "active" (some ("eq", "true")))) :=
    eq_ok_of_toOption (by decide +kernel)
  exact ((hfilter _ _ _ _ hlong hshort).2 (by decide)).2 "accountStatus" (by decide) (by decide)

/-- Behind the name of the schema, neither the name of an attribute nor its value is translated. -/
theorem core_spelling_untranslated :
    Filter.translate (.user .empty)
        (some "urn:ietf:params:scim:schemas:core:2.0:User:name.familyName eq \"Doe\"") =
      .ok "urn:ietf:params:scim:schemas:core:2.0:User:name.familyName eq \"Doe\"" ∧
    Filter.translate (.user .empty) (some "name.familyName eq \"Doe\"") = .ok "sn eq \"Doe\"" ∧
    Filter.translate (.user .empty)
        (some "urn:ietf:params:scim:schemas:core:2.0:User:active eq true") =
      .ok "urn:ietf:params:scim:schemas:core:2.0:User:active eq true" ∧
    Filter.translate (.user .empty) (some "active eq true") = .ok "accountStatus eq \"active\"" :=
  ⟨eq_ok_of_toOption (by decide +kernel), eq_ok_of_toOption (by decide +kernel),
    eq_ok_of_toOption (by decide +kernel), eq_ok_of_toOption (by decide +kernel)⟩

end Patch

end ScimBridge
