import ScimBridge.Proofs.Patch.Coverage
import ScimBridge.Proofs.Patch.Requests
import ScimBridge.Proofs.Resource.Slots

/-!
# Patches without a path

A patch without a path takes a partial resource for its value. Each member of it could be named by a
path of its own (`documentAt_of_addressable`), and unless two members lead to the same field, the
patch does what the patches of its members do, each of them once (`whole_patch_perm`).
-/

namespace ScimBridge

open Resource

namespace Patch

/-- A name that a path can consist of: without the characters that mean something in paths, and
without blanks at its ends. -/
structure AttributeName (name : String) : Prop where
  ne_empty : name ≠ ""
  plain : ∀ ch ∈ name.toList, ch ≠ '.' ∧ ch ≠ '[' ∧ ch ≠ '/'
  trimmed : Trimmed name.toList

/-- A member that a path can name: an attribute, or the object of the enterprise extension. -/
def Addressable (p : String × Value) : Prop :=
  p.2 ≠ .null ∧
    (AttributeName p.1 ∨ p.1 = Urn.enterpriseUser ∧ ∃ members, p.2 = .object members)

/-- The characters of a name can be checked one by one. -/
theorem attributeName_of_all {name : String} (hne : name ≠ "")
    (h : name.toList.all (fun ch => ch != '.' && (ch != '[' && isBareChar ch)) = true) :
    AttributeName name := by
  have hchar : ∀ ch ∈ name.toList, ch ≠ '.' ∧ ch ≠ '[' ∧ ch ≠ '/' ∧ isBlank ch = false :=
    fun ch hch => by simpa [isBareChar] using List.all_eq_true.1 h ch hch
  exact
    { ne_empty := hne
      plain := fun ch hch => ⟨(hchar ch hch).1, (hchar ch hch).2.1, (hchar ch hch).2.2.1⟩
      trimmed := (bare_of_forall fun ch hch => (hchar ch hch).2.2).1 }

namespace AttributeName

variable {name : String} (h : AttributeName name)

include h

theorem bare : Bare name :=
  ⟨h.trimmed, fun hhead => (h.plain '/' (List.mem_of_mem_head? hhead)).2.2 rfl⟩

theorem segments_eq : segments name = [name] := by
  have hdot : '.' ∉ name.toList := fun hmem => (h.plain '.' hmem).1 rfl
  rw [segments, cutText, cutAt_of_not_mem hdot, List.map_singleton, String.ofList_toList]

/-- Every name of a schema has a dot in it. -/
theorem target_eq : Target.of name = ⟨none, name⟩ :=
  Converter.target_of_unnamed fun urn hurn hbegins =>
    (h.plain '.' (hbegins.subset ((by decide : ∀ urn ∈ schemas, '.' ∈ urn.toList) urn hurn))).1 rfl

end AttributeName

namespace Converter

/-- What the patch of one member becomes; a patch that is refused becomes nothing. -/
def memberPatch (c : Converter) (verb : Verb) (p : String × Value) : List Operation :=
  (c.convert (request [entryOf verb p.1 (some p.2)])).toOption.getD []

variable {c : MappingConfig} {collections : Collections} {verb : Verb} {p : String × Value}

theorem bare_of_addressable (h : Addressable p) : Bare p.1 ∧ p.1 ≠ "" := by
  rcases h.2 with hname | ⟨hext, -⟩
  · exact ⟨hname.bare, hname.ne_empty⟩
  · rw [hext]
    exact ⟨bare_of_all (by decide), by decide⟩

/-- The partial resource of a member's path is the member on its own. -/
theorem documentAt_of_addressable (h : Addressable p) (verb : Verb) :
    documentAt verb p.1 p.2 = .ok [p] := by
  obtain ⟨name, v⟩ := p
  rcases h.2 with hname | ⟨hext, members, hobject⟩
  · have hbracket : '[' ∉ name.toList := fun hmem => (hname.plain '[' hmem).2.1 rfl
    rw [documentAt_core hbracket hname.ne_empty hname.target_eq (by simp), hname.segments_eq]
    rfl
  · have htarget : Target.of Urn.enterpriseUser = ⟨some Urn.enterpriseUser, ""⟩ := by decide
    have hplain : (⟨some Urn.enterpriseUser, ""⟩ : Target).plain = "" := plain_eq_self (by simp)
    dsimp only at hext hobject
    rw [hext, hobject, documentAt]
    simp only [htarget, hplain, if_true]

/-- The patch of one member writes what the member on its own stores, or is refused if this is
nothing. -/
theorem convert_member (h : Addressable p) (hverb : verb ≠ .remove) :
    (ofUsers collections c).convert (request [entryOf verb p.1 (some p.2)]) =
      if User.toBackend c [p] = [] then .error (.unsupportedPath p.1)
      else .ok (operationsOf verb (User.toBackend c [p])) := by
  obtain ⟨hbare, hne⟩ := bare_of_addressable h
  have hdocument := documentAt_of_addressable h verb
  split
  · rename_i hnil
    exact convert_writing_refused type_ofUsers_ne_group hbare hne hverb h.1 hdocument hnil
  · rename_i hsome
    exact convert_writing type_ofUsers_ne_group hbare hne hverb h.1 hdocument hsome

theorem memberPatch_eq (h : Addressable p) (hverb : verb ≠ .remove) :
    (ofUsers collections c).memberPatch verb p = operationsOf verb (User.toBackend c [p]) := by
  rw [memberPatch, convert_member h hverb]
  by_cases hnil : User.toBackend c [p] = []
  · rw [if_pos hnil, hnil]
    rfl
  · rw [if_neg hnil]
    rfl

theorem mem_operationsOf {attributes : Fields Value} {field : String}
    (h : field ∈ attributes.keys) (verb : Verb) :
    ∃ o ∈ operationsOf verb attributes, o.field = "/" ++ field := by
  obtain ⟨p, hp, rfl⟩ := List.mem_map.1 h
  exact ⟨_, List.mem_map_of_mem hp, rfl⟩

theorem nodup_fields_operationsOf (verb : Verb) {attributes : Fields Value}
    (h : attributes.keys.Nodup) : ((operationsOf verb attributes).map (·.field)).Nodup := by
  have hfields : (operationsOf verb attributes).map (·.field) =
      attributes.keys.map ("/" ++ ·) := by
    rw [operationsOf, Fields.keys, List.map_map, List.map_map]
    rfl
  rw [hfields]
  exact h.map fun name other heq => (String.append_right_inj "/").1 heq

end Converter

open Converter

/-- **A patch without a path does what the patches of its members do.** The patch of a member may be
refused because nothing answers to its name; then it counts as none. If no two members lead to the
same field, the patch without a path is converted, and its operations are those of the members in
some order, one for each field. -/
theorem whole_patch_perm {c : MappingConfig} (collections : Collections) {verb : Verb}
    (hverb : verb ≠ .remove) {members : Fields Value} (hnodup : members.keys.Nodup)
    (haddressable : ∀ p ∈ members, Addressable p)
    (hfields : members.Pairwise fun p q =>
      ∀ o ∈ (ofUsers collections c).memberPatch verb p,
        ∀ o' ∈ (ofUsers collections c).memberPatch verb q, o.field ≠ o'.field) :
    (∀ p ∈ members, ∀ fault,
      (ofUsers collections c).convert (request [entryOf verb p.1 (some p.2)]) = .error fault →
        fault = .unsupportedPath p.1) ∧
    ∃ operations,
      (ofUsers collections c).convert (request [wholeEntry verb members]) = .ok operations ∧
      operations.Perm (members.flatMap ((ofUsers collections c).memberPatch verb)) ∧
      (operations.map (·.field)).Nodup := by
  refine ⟨fun p hp fault hfault => ?_, _, convert_whole type_ofUsers_ne_group hverb members, ?_, ?_⟩
  · rw [convert_member (haddressable p hp) hverb] at hfault
    split at hfault
    · exact (Except.error.inj hfault).symm
    · cases hfault
  · have hpatches : members.flatMap ((ofUsers collections c).memberPatch verb) =
        operationsOf verb (members.flatMap fun p => User.toBackend c [p]) := by
      rw [operationsOf, List.map_flatMap]
      exact List.flatMap_congr fun p hp => memberPatch_eq (haddressable p hp) hverb
    rw [hpatches]
    refine (User.toBackend_perm hnodup (hfields.imp_of_mem fun {p q} hp hq hne => ?_)).map _
    intro field hfield hother
    obtain ⟨o, ho, hname⟩ := mem_operationsOf hfield verb
    obtain ⟨o', ho', hname'⟩ := mem_operationsOf hother verb
    rw [← memberPatch_eq (haddressable p hp) hverb] at ho
    rw [← memberPatch_eq (haddressable q hq) hverb] at ho'
    exact hne o ho o' ho' (hname.trans hname'.symm)
  · exact nodup_fields_operationsOf verb (User.nodup_keys_toBackend c members)

/-- A status, a name of one part, an attribute that nobody knows and the extension, in another order
than that in which their fields are written. -/
theorem whole_patch_perm_nested :
    let employee : Mapping :=
      { path := "employeeNumber", schema := Urn.enterpriseUser
        backendAttribute := "frIndexedString1" }
    let c : MappingConfig := ⟨[employee], by decide⟩
    let extension : Value := .object [("employeeNumber", .string "E-9")]
    let name : Value := .object [("givenName", .string "Dana")]
    ∃ operations,
      (ofUsers {} c).convert (request [wholeEntry .replace [(Urn.enterpriseUser, extension),
        ("shoeSize", .int 43), ("name", name), ("active", .bool false)]]) = .ok operations ∧
      operations.Perm
        [⟨.replace, "/frIndexedString1", some (.string "E-9")⟩,
         ⟨.replace, "/givenName", some (.string "Dana")⟩,
         ⟨.replace, "/accountStatus", some (.string "inactive")⟩] := by
  intro employee c extension name
  let members : Fields Value := [(Urn.enterpriseUser, extension), ("shoeSize", .int 43),
    ("name", name), ("active", .bool false)]
  have hattribute : ∀ name ∈ ["shoeSize", "name", "active"], AttributeName name := fun name hname =>
    attributeName_of_all ((by decide : ∀ name ∈ ["shoeSize", "name", "active"], name ≠ "") name hname)
      ((by decide : ∀ name ∈ ["shoeSize", "name", "active"], name.toList.all (fun ch =>
        ch != '.' && (ch != '[' && isBareChar ch)) = true) name hname)
  have haddressable : ∀ p ∈ members, Addressable p := by
    simp only [members, List.forall_mem_cons, List.not_mem_nil, false_imp_iff, implies_true,
      and_true]
    exact ⟨⟨by simp [extension], .inr ⟨rfl, _, rfl⟩⟩, ⟨by simp, .inl (hattribute _ (by simp))⟩,
      ⟨by simp [name], .inl (hattribute _ (by simp))⟩, ⟨by simp, .inl (hattribute _ (by simp))⟩⟩
  have hpatch : ∀ p ∈ members, (ofUsers {} c).memberPatch .replace p =
      operationsOf .replace (User.toBackend c [p]) :=
    fun p hp => memberPatch_eq (haddressable p hp) (by decide)
  have hkeys : members.Pairwise fun p q => ∀ field ∈ (User.toBackend c [p]).keys,
      field ∉ (User.toBackend c [q]).keys := by decide
  have hfields : members.Pairwise fun p q => ∀ o ∈ (ofUsers {} c).memberPatch .replace p,
      ∀ o' ∈ (ofUsers {} c).memberPatch .replace q, o.field ≠ o'.field := by
    refine hkeys.imp_of_mem fun {p q} hp hq hdisjoint o ho o' ho' heq => ?_
    rw [hpatch p hp] at ho
    rw [hpatch q hq] at ho'
    obtain ⟨e, he, rfl⟩ := List.mem_map.1 ho
    obtain ⟨e', he', rfl⟩ := List.mem_map.1 ho'
    refine hdisjoint e.1 (List.mem_map_of_mem he) ?_
    rw [(String.append_right_inj "/").1 heq]
    exact List.mem_map_of_mem he'
  obtain ⟨-, operations, hconvert, hperm, -⟩ :=
    whole_patch_perm {} (by decide : Verb.replace ≠ .remove) (by decide : members.keys.Nodup)
      haddressable hfields
  refine ⟨operations, hconvert, ?_⟩
  have hpatches : members.flatMap ((ofUsers {} c).memberPatch .replace) =
      [⟨.replace, "/frIndexedString1", some (.string "E-9")⟩,
       ⟨.replace, "/givenName", some (.string "Dana")⟩,
       ⟨.replace, "/accountStatus", some (.string "inactive")⟩] := by
    rw [List.flatMap_congr hpatch]
    simp only [members, c, employee, extension, name]
    rfl
  exact hpatches ▸ hperm

end Patch

end ScimBridge
