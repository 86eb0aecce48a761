import ScimBridge.Proofs.Patch.Entries
import ScimBridge.Proofs.Text.Trim

/-!
# Requests of one entry

A request with one entry is converted as its entry is (`convert_single`), and an entry that spells a
verb, a path and perhaps a value is converted as these are (`entryOperations_of`). Outside groups, it
becomes removals of the fields that the path covers (`convert_removal`), or writes the attributes of
the partial resource that holds the value (`convert_writing`), and without such attributes it is
refused (`convert_writing_refused`). An entry without a path writes the attributes of its value
(`convert_whole`).
-/

namespace ScimBridge

namespace Patch

/-- A request with some entries. -/
def request (entries : List Value) : Value :=
  .object [("schemas", .texts [Urn.patchOp]), ("Operations", .array entries)]

/-- The entry with a verb, a path and perhaps a value. -/
def entryOf (verb : Verb) (path : String) (value? : Option Value) : Value :=
  .object ([("op", .string verb.text), ("path", .string path)]
    ++ value?.toList.map fun v => ("value", v))

/-- The entry with a verb and no path: its value is a partial resource. -/
def wholeEntry (verb : Verb) (members : Fields Value) : Value :=
  .object [("op", .string verb.text), ("value", .object members)]

/-- What operations leave behind that are applied one after the other. -/
def applyAll {σ : Type} (apply : Operation → σ → σ) (operations : List Operation) (state : σ) : σ :=
  operations.foldl (fun acc o => apply o acc) state

/-- A path that is read as it stands: there are no blanks at its ends and no slash in front. -/
def Bare (path : String) : Prop := Trimmed path.toList ∧ path.toList.head? ≠ some '/'

theorem bare_of_forall {path : String} (h : ∀ ch ∈ path.toList, ch ≠ '/' ∧ isBlank ch = false) :
    Bare path :=
  ⟨⟨fun ch hch => (h ch (List.mem_of_mem_head? hch)).2,
    fun ch hch => (h ch (List.mem_of_getLast? hch)).2⟩,
    fun hhead => (h '/' (List.mem_of_mem_head? hhead)).1 rfl⟩

/-- Whether a character is neither a slash nor a blank. -/
def isBareChar (ch : Char) : Bool := ch != '/' && !isBlank ch

theorem all_isBareChar_iff {chars : List Char} :
    chars.all isBareChar = true ↔ ∀ ch ∈ chars, ch ≠ '/' ∧ isBlank ch = false := by
  simp [isBareChar]

theorem bare_of_all {path : String} (h : path.toList.all isBareChar = true) : Bare path :=
  bare_of_forall (all_isBareChar_iff.1 h)

theorem dropFront_of_head {c : Char} {s : String} (h : s.toList.head? ≠ some c) :
    dropFront c s = s := by
  unfold dropFront
  cases hs : s.toList with
  | nil => simpa using hs.symm
  | cons d rest =>
    have hd : d ≠ c := fun heq => h (by rw [hs, heq]; rfl)
    rw [List.dropWhile_cons_of_neg (by simpa using hd), ← hs, String.ofList_toList]

namespace Converter

variable {c : Converter}

theorem convert_single (entry : Value) :
    c.convert (request [entry]) = c.entryOperations entry := by
  have hentries : entriesOf (request [entry]) = .ok [entry] := rfl
  unfold convert
  rw [hentries]
  cases hentry : c.entryOperations entry <;>
    simp [bind, Except.bind, hentry, pure, Except.pure]

theorem verbOf_text (verb : Verb) (rest : Fields Value) :
    verbOf (("op", .string verb.text) :: rest) = .ok verb := by
  have hop : Fields.get? (("op", Value.string verb.text) :: rest) "op" =
      some (.string verb.text) := (Fields.get?_cons _ _ _ _).trans (if_pos rfl)
  unfold verbOf
  rw [hop]
  cases verb <;> rfl

theorem pathOf_of_get? {path : String} (h : Bare path) {fields : Fields Value}
    (hpath : fields.get? "path" = some (.string path)) : pathOf fields = .ok path := by
  unfold pathOf
  rw [hpath]
  show Except.ok (dropFront '/' (trimText path)) = _
  rw [trimText, trim_of_trimmed h.1, String.ofList_toList, dropFront_of_head h.2]

theorem pathOf_bare {path : String} (h : Bare path) (op : Value) (rest : Fields Value) :
    pathOf (("op", op) :: ("path", .string path) :: rest) = .ok path :=
  pathOf_of_get? h rfl

/-- An entry is converted as its verb, its path and its value are. -/
theorem entryOperations_of {fields : Fields Value} {verb : Verb} {path : String}
    (hverb : verbOf fields = .ok verb) (hpath : pathOf fields = .ok path) :
    c.entryOperations (.object fields) =
      c.operations verb path ((fields.get? "value").getD .null) := by
  unfold entryOperations
  simp only [hverb, hpath]
  rfl

theorem convert_entryOf {path : String} (h : Bare path) (verb : Verb) (value? : Option Value) :
    c.convert (request [entryOf verb path value?]) = c.operations verb path (value?.getD .null) := by
  rw [convert_single]
  refine (entryOperations_of (verbOf_text verb _) (pathOf_bare h _ _)).trans ?_
  cases value? <;> rfl

section

variable {path : String}

theorem isMembersPath_eq_false (htype : c.type ≠ .group) : c.isMembersPath path = false := by
  simp [isMembersPath, htype]

theorem operations_writing (hmembers : c.isMembersPath path = false) (hne : path ≠ "")
    {verb : Verb} (hverb : verb ≠ .remove) {v : Value} (hv : v ≠ .null) :
    c.operations verb path v = c.attributeOperations verb path v := by
  unfold operations
  split
  · exact absurd rfl hverb
  · split
    · exact absurd rfl hv
    · rw [if_neg hne, hmembers]
      rfl

/-- Outside groups, an entry that removes a path removes the fields that the path covers. -/
theorem convert_entry_removal (htype : c.type ≠ .group) {fields : Fields Value}
    (hverb : verbOf fields = .ok .remove) (hpath : pathOf fields = .ok path) (hne : path ≠ "") :
    c.convert (request [.object fields]) =
      (c.fieldsFor path).map fun fields => fields.map fun field => ⟨.remove, "/" ++ field, none⟩ := by
  rw [convert_single, entryOperations_of hverb hpath, operations, if_neg hne,
    isMembersPath_eq_false htype]
  rfl

/-- Outside groups, what is removed are the fields that the path covers. -/
theorem convert_removal (htype : c.type ≠ .group) (h : Bare path) (hne : path ≠ "")
    {fields : List String} (hfields : c.fieldsFor path = .ok fields) :
    c.convert (request [entryOf .remove path none]) =
      .ok (fields.map fun field => ⟨.remove, "/" ++ field, none⟩) := by
  refine (convert_entry_removal htype (verbOf_text .remove _) (pathOf_bare h _ _) hne).trans ?_
  rw [hfields]
  rfl

/-- Outside groups, an entry with a value and a path writes the value at the path. -/
theorem convert_entry_writing (htype : c.type ≠ .group) {fields : Fields Value} {verb : Verb}
    (hverb : verbOf fields = .ok verb) (hwriting : verb ≠ .remove)
    (hpath : pathOf fields = .ok path) (hne : path ≠ "") {v : Value}
    (hvalue : fields.get? "value" = some v) (hv : v ≠ .null) :
    c.convert (request [.object fields]) = c.attributeOperations verb path v := by
  rw [convert_single, entryOperations_of hverb hpath, hvalue, Option.getD_some,
    operations_writing (isMembersPath_eq_false htype) hne hwriting hv]

/-- Writing at a path writes the attributes of the partial resource, and is refused if there are
none. -/
theorem attributeOperations_of {verb : Verb} {v : Value} {document : Fields Value}
    (hdocument : documentAt verb path v = .ok document) :
    c.attributeOperations verb path v =
      if c.attributesOf document = [] then .error (.unsupportedPath path)
      else .ok (operationsOf verb (c.attributesOf document)) := by
  unfold attributeOperations
  simp only [hdocument, bind, Except.bind]
  cases c.attributesOf document <;> rfl

/-- Outside groups, what is added or replaced are the attributes of the partial resource. -/
theorem convert_writing (htype : c.type ≠ .group) (h : Bare path) (hne : path ≠ "")
    {verb : Verb} (hverb : verb ≠ .remove) {v : Value} (hv : v ≠ .null)
    {document : Fields Value} (hdocument : documentAt verb path v = .ok document)
    (hattributes : c.attributesOf document ≠ []) :
    c.convert (request [entryOf verb path (some v)]) =
      .ok (operationsOf verb (c.attributesOf document)) := by
  rw [convert_entryOf h, Option.getD_some,
    operations_writing (isMembersPath_eq_false htype) hne hverb hv,
    attributeOperations_of hdocument, if_neg hattributes]

/-- Outside groups, a partial resource on its own writes its attributes, if there are any. -/
theorem convert_whole (htype : c.type ≠ .group) {verb : Verb} (hverb : verb ≠ .remove)
    (members : Fields Value) :
    c.convert (request [wholeEntry verb members]) =
      .ok (operationsOf verb (c.attributesOf members)) := by
  have hobject : c.objectOperations verb members =
      .ok (operationsOf verb (c.attributesOf members)) := by
    unfold objectOperations
    split
    · rename_i hgroup _
      exact absurd hgroup htype
    · rfl
  have hwhole : c.operations verb "" (.object members) = c.objectOperations verb members := by
    cases verb with
    | remove => exact absurd rfl hverb
    | add => rfl
    | replace => rfl
  rw [convert_single]
  unfold wholeEntry entryOperations
  simp only [verbOf_text]
  exact hwhole.trans hobject

/-- A partial resource without attributes of the backend is refused. -/
theorem convert_writing_refused (htype : c.type ≠ .group) (h : Bare path) (hne : path ≠ "")
    {verb : Verb} (hverb : verb ≠ .remove) {v : Value} (hv : v ≠ .null)
    {document : Fields Value} (hdocument : documentAt verb path v = .ok document)
    (hattributes : c.attributesOf document = []) :
    c.convert (request [entryOf verb path (some v)]) = .error (.unsupportedPath path) := by
  rw [convert_entryOf h, Option.getD_some,
    operations_writing (isMembersPath_eq_false htype) hne hverb hv,
    attributeOperations_of hdocument, if_pos hattributes]

end

end Converter

end Patch

end ScimBridge
