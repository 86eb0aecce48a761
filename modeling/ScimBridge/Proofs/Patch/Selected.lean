import ScimBridge.Proofs.Patch.Membership

/-!
# Patching one member

A path can name one member by a filter on its identifier, in several spellings, and go on behind it
(`MemberPath`). Only a removal looks at the filter: it drops references to that member and keeps the
others (`run_removal`). What is added is put behind the members (`run_addition`), and what replaces
the member takes the place of the whole list (`run_replacement`). So an operation on one member keeps
the other members iff it is no replacement (`others_kept_iff`): to replace the display name of one
member leaves the group with the user of that name alone (`renaming_drops_members`).
-/

namespace ScimBridge

/-! ## Readers of a filter -/

namespace Patch

theorem afterWord?_append {word spelled : List Char} (h : lowerText spelled = word)
    (hword : ∀ ch ∈ word, isLatinLetter ch = true) (rest : List Char) :
    afterWord? word (spelled ++ rest) = some rest := by
  have hlength : word.length = spelled.length := by
    rw [← h, length_lowerText (letters_of_lowerText h hword).1]
  rw [afterWord?, hlength, List.take_left, List.drop_left, if_pos h]

theorem trimStart_eq_self {cs : List Char} (h : ∀ ch, cs.head? = some ch → isBlank ch = false) :
    trimStart cs = cs := by
  cases cs with
  | nil => rfl
  | cons ch cs => exact List.dropWhile_cons_of_neg (by rw [h ch rfl]; exact Bool.false_ne_true)

theorem afterGap?_append {gap rest : List Char} (hgap : allBlank gap = true) (hne : gap ≠ [])
    (hrest : ∀ ch, rest.head? = some ch → isBlank ch = false) :
    afterGap? (gap ++ rest) = some rest := by
  obtain ⟨ch, gap, rfl⟩ := List.exists_cons_of_ne_nil hne
  rw [allBlank_iff, List.forall_mem_cons] at hgap
  rw [List.cons_append, afterGap?, if_pos hgap.1,
    trimStart_blanks_append (allBlank_iff.2 hgap.2), trimStart_eq_self hrest]

/-- A filter on the identifier of a member, in one of its spellings. -/
structure IdFilter where
  indent : List Char := []
  name : List Char := ['v', 'a', 'l', 'u', 'e']
  gap : List Char := [' ']
  operator : List Char := ['e', 'q']
  space : List Char := [' ']
  quote : Char := '"'
  id : List Char
  padding : List Char := []
  blank : allBlank indent = true ∧ allBlank gap = true ∧ allBlank space = true ∧
    allBlank padding = true := by decide
  apart : gap ≠ [] ∧ space ≠ [] := by decide
  name_eq : lowerText name = ['v', 'a', 'l', 'u', 'e'] := by decide
  operator_eq : lowerText operator = ['e', 'q'] := by decide
  quote_eq : quote = '"' ∨ quote = '\'' := by decide
  id_closed : quote ∉ id

namespace IdFilter

variable (f : IdFilter)

/-- The text of the filter, with what follows it. -/
def before (rest : List Char) : List Char :=
  '[' :: (f.indent ++ (f.name ++ (f.gap ++ (f.operator ++ (f.space ++
    f.quote :: (f.id ++ f.quote :: (f.padding ++ ']' :: rest)))))))

/-- A word that is a name in lower case begins with no blank. -/
theorem head_of_word {word spelled rest : List Char} (h : lowerText spelled = word)
    (hword : ∀ ch ∈ word, isLatinLetter ch = true) (hne : word ≠ []) :
    ∀ ch, (spelled ++ rest).head? = some ch → isBlank ch = false := by
  intro ch hch
  have hspelled : spelled ≠ [] := by
    rintro rfl
    exact hne h.symm
  rw [List.head?_append_of_ne_nil _ hspelled] at hch
  exact (plain_of_letters (letters_of_lowerText h hword).2 ch (List.mem_of_mem_head? hch)).2.2.2

/-- Whatever its spelling, the filter is read. -/
theorem valueFilter?_before (rest : List Char) : valueFilter? (f.before rest) = some f.id := by
  obtain ⟨hindent, hgap, hspace, hpadding⟩ := f.blank
  have hname : ∀ ch ∈ ['v', 'a', 'l', 'u', 'e'], isLatinLetter ch = true :=
    List.all_eq_true.1 (by decide)
  have hoperator : ∀ ch ∈ ['e', 'q'], isLatinLetter ch = true := List.all_eq_true.1 (by decide)
  have hquote : ∀ tail ch, (f.quote :: tail).head? = some ch → isBlank ch = false := by
    rintro tail ch ⟨⟩
    rcases f.quote_eq with h | h <;> rw [h] <;> rfl
  have hid := upToQuote?_append f.id_closed (f.padding ++ ']' :: rest)
  have hclose : trimStart (f.padding ++ ']' :: rest) = ']' :: rest :=
    trimStart_blanks_append hpadding _
  generalize hclosing : f.padding ++ ']' :: rest = closing at hid hclose
  -- each reader takes its piece of the text and leaves the rest to the next one
  have hread : after? ['['] (f.before rest) = some (f.indent ++ (f.name ++ (f.gap ++
      (f.operator ++ (f.space ++ f.quote :: (f.id ++ f.quote :: closing)))))) := by
    rw [← hclosing]
    rfl
  unfold valueFilter?
  rw [hread]
  simp only [trimStart_blanks_append hindent,
    trimStart_eq_self (head_of_word f.name_eq hname (by decide)),
    afterWord?_append f.name_eq hname,
    afterGap?_append hgap f.apart.1 (head_of_word f.operator_eq hoperator (by decide)),
    afterWord?_append f.operator_eq hoperator, afterGap?_append hspace f.apart.2 (hquote _),
    Option.bind_eq_bind, Option.bind_some, if_pos f.quote_eq, hid, hclose]

end IdFilter

/-- A path that selects a member by its identifier, in one of its spellings. -/
structure MemberPath extends IdFilter where
  schema : Option String := none
  list : List Char := ['m', 'e', 'm', 'b', 'e', 'r', 's']
  behind : List Char := []
  schema_mem : ∀ urn ∈ schema, urn ∈ schemas := by decide
  list_eq : lowerText list = ['m', 'e', 'm', 'b', 'e', 'r', 's'] := by decide

namespace MemberPath

variable (s : MemberPath)

/-- The path behind the name of its schema. -/
def inside : String := String.ofList (s.list ++ s.before s.behind)

/-- The path as a request spells it. -/
def path : String :=
  match s.schema with
  | some urn => urn ++ ":" ++ s.inside
  | none => s.inside

theorem letters_list : 'İ' ∉ s.list ∧ ∀ ch ∈ s.list, isLatinLetter ch = true :=
  letters_of_lowerText s.list_eq (List.all_eq_true.1 (by decide))

theorem lowerText_inside : "members[".toList <+: lowerText s.inside.toList := by
  refine ⟨lowerText (s.before s.behind).tail, ?_⟩
  have hbefore : lowerText (s.before s.behind) = '[' :: lowerText (s.before s.behind).tail :=
    lowerText_cons (by decide) _
  have hinside : s.inside.toList = s.list ++ s.before s.behind := String.toList_ofList
  rw [hinside, lowerText_append, s.list_eq, hbefore]
  rfl

theorem target_path : Target.of s.path = ⟨s.schema, s.inside⟩ := by
  unfold path
  cases hschema : s.schema with
  | some urn => exact Converter.target_named (s.schema_mem urn hschema) s.inside
  | none =>
    refine Converter.target_of_unnamed fun urn hurn hbegins => ?_
    have hhead : (lowerText urn.toList).head? = some 'u' :=
      (by decide : ∀ urn ∈ schemas, (lowerText urn.toList).head? = some 'u') urn hurn
    obtain ⟨rest, hrest⟩ := s.lowerText_inside
    obtain ⟨tail, htail⟩ := isPrefix_lowerText hbegins
    rw [← hrest] at htail
    have := congrArg List.head? htail
    rw [List.head?_append, hhead] at this
    cases this

theorem isMembers_path : (Target.of s.path).isMembers = true := by
  have hbracket : beginsWith "members[" (lowered s.inside) = true := by
    have hlowered : (lowered s.inside).toList = lowerText s.inside.toList := String.toList_ofList
    rw [beginsWith, hlowered]
    exact List.isPrefixOf_iff_prefix.2 s.lowerText_inside
  rw [s.target_path]
  unfold Target.isMembers
  simp [hbracket]

/-- What stands in front of the filter has no bracket. -/
theorem toList_path : ∃ front, '[' ∉ front ∧ s.path.toList = front ++ s.before s.behind := by
  have hlist : '[' ∉ s.list := fun hmem => absurd (s.letters_list.2 '[' hmem) (by decide)
  unfold path
  cases hschema : s.schema with
  | none => exact ⟨s.list, hlist, String.toList_ofList⟩
  | some urn =>
    have hurn : '[' ∉ (urn ++ ":").toList :=
      (by decide : ∀ urn ∈ schemas, '[' ∉ (urn ++ ":").toList) urn (s.schema_mem urn hschema)
    refine ⟨(urn ++ ":").toList ++ s.list, ?_, ?_⟩
    · rw [List.mem_append, not_or]
      exact ⟨hurn, hlist⟩
    · show (urn ++ ":" ++ s.inside).toList = _
      rw [String.toList_append, inside, String.toList_ofList, List.append_assoc]

theorem contains_bracket : s.path.toList.contains '[' = true := by
  obtain ⟨front, -, hpath⟩ := s.toList_path
  rw [hpath]
  simp [IdFilter.before]

theorem path_ne_empty : s.path ≠ "" := by
  intro h
  have := s.contains_bracket
  rw [h] at this
  cases this

/-- The path selects the member of its filter. -/
theorem selectedId?_path : selectedId? s.path.toList = some s.id := by
  obtain ⟨front, hfront, hpath⟩ := s.toList_path
  have hvalue := s.valueFilter?_before s.behind
  rw [hpath, selectedId?_append hfront]
  unfold IdFilter.before at hvalue ⊢
  rw [selectedId?, hvalue]

end MemberPath

/-! ## Operations -/

namespace Converter

variable {c : Converter} (htype : c.type = .group) (s : MemberPath) {value : Value}
  {operations : List Operation}

include htype in
theorem isMembersPath_path : c.isMembersPath s.path = true := by
  rw [isMembersPath, htype, s.isMembers_path]
  rfl

include htype in
/-- To remove the member removes the reference to a user with its identifier, if it has one. -/
theorem operations_removing {ref? : Option String}
    (href : Member.reference? c.collections (.object [("value", .string (String.ofList s.id))]) =
      ref?) :
    c.operations .remove s.path value =
      .ok (ref?.toList.map fun ref => ⟨.remove, "/members", some (Member.referenceEntry ref)⟩) := by
  rw [operations, if_neg s.path_ne_empty, if_pos (isMembersPath_path htype s)]
  unfold removeMembers removeReferences
  rw [if_pos s.contains_bracket, s.selectedId?_path]
  simp only [references, Member.toBackend, List.filterMap_cons, List.filterMap_nil, href]
  cases ref? <;> rfl

include htype in
/-- To add or replace something at the member is to do so at the whole list, whose new members are
what the value stands for. -/
theorem operations_writing_member {verb : Verb} (hverb : verb ≠ .remove)
    (h : c.operations verb s.path value = .ok operations) :
    ∃ entries, c.references value = .ok entries ∧
      (verb = .add → operations = entries.map fun entry => ⟨.add, "/members/-", some entry⟩) ∧
      (verb = .replace → operations = [⟨.replace, "/members", some (.array entries)⟩]) := by
  have hmembers : c.memberOperations verb value = .ok operations := by
    unfold Converter.operations at h
    split at h
    · exact absurd rfl hverb
    · split at h
      · cases h
      · rwa [if_neg s.path_ne_empty, if_pos (isMembersPath_path htype s)] at h
  unfold memberOperations at hmembers
  obtain ⟨entries, hentries, hoperations⟩ := bind_eq_ok_iff.1 hmembers
  refine ⟨entries, hentries, ?_, ?_⟩ <;> rintro rfl <;> exact (Except.ok.inj hoperations).symm

end Converter

end Patch

/-! ## Member lists -/

namespace Member

/-- Whether an entry of a member list refers to an object with an identifier, in whatever
collection. -/
def hasId (id : String) (entry : Value) : Bool :=
  (entry.get? "_ref").any fun v => v.text?.any fun ref => finishesWith ("/" ++ id) ref

theorem hasId_of_refersTo {collection id : String} {entry : Value}
    (h : refersTo (referenceTo collection id) entry = true) : hasId id entry = true := by
  unfold refersTo at h
  obtain ⟨v, hv, htext⟩ := (Option.any_eq_true _ _).1 h
  have hends : finishesWith ("/" ++ id) (referenceTo collection id) = true := by
    refine List.isSuffixOf_iff_suffix.2 ⟨("managed/" ++ collection).toList, ?_⟩
    rw [← String.toList_append, referenceTo, String.append_assoc, String.append_assoc,
      String.append_assoc]
  unfold hasId
  rw [hv, Option.any_some, eq_of_beq htext, Option.any_some, hends]

/-- The members with other identifiers. -/
def others (id : String) (members : List Value) : List Value :=
  members.filter fun entry => !hasId id entry

/-- A longer identifier is another one. -/
theorem hasId_other (collection id : String) :
    hasId id (referenceEntry (referenceTo collection (id ++ "-"))) = false := by
  have hsuffix : ¬ ("/" ++ id).toList <:+ (referenceTo collection (id ++ "-")).toList := by
    intro hends
    have hlast : (id ++ "-").toList <:+ (referenceTo collection (id ++ "-")).toList :=
      ⟨("managed/" ++ collection ++ "/").toList, String.toList_append.symm⟩
    have hlength : ("/" ++ id).toList.length = (id ++ "-").toList.length := by
      simp [Nat.add_comm]
    have heq := (List.suffix_of_suffix_length_le hends hlast hlength.le).eq_of_length hlength
    have hcount := congrArg (List.count '/') heq
    simp [List.count_append] at hcount
  exact eq_false_of_ne_true fun hends => hsuffix (List.isSuffixOf_iff_suffix.1 hends)

end Member

/-- A backend whose member lists can also be replaced as a whole. -/
structure GroupStore extends MemberStore where
  apply_replace : ∀ entries members,
    apply ⟨.replace, "/members", some (.array entries)⟩ members = entries

namespace GroupStore

/-- A list that entries are appended to and dropped from, or that is replaced. -/
def ofList : GroupStore where
  apply o members :=
    match o.verb, o.field, o.value with
    | .replace, "/members", some (.array entries) => entries
    | _, _, _ => MemberStore.ofList.apply o members
  apply_add _ _ := rfl
  apply_remove _ _ := rfl
  apply_replace _ _ := rfl

end GroupStore

namespace MemberStore

theorem run_additions (store : MemberStore) (entries members : List Value) :
    store.run (entries.map fun entry => ⟨.add, "/members/-", some entry⟩) members =
      members ++ entries := by
  induction entries generalizing members with
  | nil => exact (List.append_nil members).symm
  | cons entry entries ih =>
    show store.run (entries.map _) (store.apply ⟨.add, "/members/-", some entry⟩ members) = _
    rw [store.apply_add, ih, List.append_assoc]
    rfl

end MemberStore

namespace Patch

open Member Converter

section

variable {c : Converter} (htype : c.type = .group) (s : MemberPath) (store : GroupStore)
  {value : Value} {operations : List Operation}

include htype

/-- What is added at a member is put behind the whole list. -/
theorem run_addition (h : c.operations .add s.path value = .ok operations) :
    ∃ entries, c.references value = .ok entries ∧
      ∀ members, store.run operations members = members ++ entries := by
  obtain ⟨entries, hentries, hadd, -⟩ := operations_writing_member htype s (by decide) h
  rw [hadd rfl]
  exact ⟨entries, hentries, fun members => store.run_additions entries members⟩

/-- What replaces a member takes the place of the whole list. -/
theorem run_replacement (h : c.operations .replace s.path value = .ok operations) :
    ∃ entries, c.references value = .ok entries ∧
      ∀ members, store.run operations members = entries := by
  obtain ⟨entries, hentries, -, hreplace⟩ := operations_writing_member htype s (by decide) h
  rw [hreplace rfl]
  exact ⟨entries, hentries, fun members => store.apply_replace entries members⟩

/-- A member that is removed takes no member with another identifier along. -/
theorem run_removal (h : c.operations .remove s.path value = .ok operations) (members : List Value) :
    (others (String.ofList s.id) members).Sublist (store.run operations members) := by
  rw [operations_removing htype s rfl] at h
  cases h
  by_cases hid : String.ofList s.id = ""
  · have hnone : reference? c.collections (.object [("value", .string (String.ofList s.id))]) =
        none := by
      rw [hid]
      rfl
    rw [hnone]
    exact List.filter_sublist
  · rw [reference?_eq rfl hid]
    show (others _ members).Sublist (store.apply _ members)
    rw [store.apply_remove]
    refine List.monotone_filter_right members fun entry hother => ?_
    cases hrefers : refersTo (referenceTo (collectionOf c.collections
        (isGroupEntry [("value", .string (String.ofList s.id))])) (String.ofList s.id)) entry with
    | false => rfl
    | true =>
      rw [hasId_of_refersTo hrefers] at hother
      cases hother

/-- An operation on one member keeps the members with other identifiers, in order, iff it does not
replace. If it does, nothing of the members before is left. -/
theorem others_kept_iff {fields : Fields Value} {verb : Verb} (hverb : verbOf fields = .ok verb)
    (hpath : pathOf fields = .ok s.path)
    (haccepted : c.entryOperations (.object fields) = .ok operations) :
    ((∀ members, (others (String.ofList s.id) members).Sublist (store.run operations members)) ↔
      verb ≠ .replace) ∧
    (verb = .replace → ∃ entries,
      c.references ((fields.get? "value").getD .null) = .ok entries ∧
        ∀ members, store.run operations members = entries) := by
  have h : c.operations verb s.path ((fields.get? "value").getD .null) = .ok operations := by
    unfold entryOperations at haccepted
    simp only [hverb, hpath] at haccepted
    exact haccepted
  cases verb with
  | add =>
    obtain ⟨entries, -, hrun⟩ := run_addition htype s store h
    refine ⟨iff_of_true (fun members => ?_) (by decide), fun hreplace => by cases hreplace⟩
    rw [hrun]
    exact List.filter_sublist.trans (List.sublist_append_left members entries)
  | remove =>
    exact ⟨iff_of_true (run_removal htype s store h) (by decide), fun hreplace => by cases hreplace⟩
  | replace =>
    obtain ⟨entries, hentries, hrun⟩ := run_replacement htype s store h
    refine ⟨iff_of_false (fun hkept => ?_) fun hne => hne rfl, fun _ => ⟨entries, hentries, hrun⟩⟩
    -- more members with another identifier than the value has entries
    let other := referenceEntry (referenceTo c.collections.user (String.ofList s.id ++ "-"))
    have hall : others (String.ofList s.id) (List.replicate (entries.length + 1) other) =
        List.replicate (entries.length + 1) other := by
      refine List.filter_eq_self.2 fun entry hentry => ?_
      rw [List.eq_of_mem_replicate hentry, hasId_other]
      rfl
    have hlength := (hkept (List.replicate (entries.length + 1) other)).length_le
    rw [hall, hrun, List.length_replicate] at hlength
    omega

end

/-- A member of a group with another one is selected to be removed; what stands behind the filter
makes no difference. -/
theorem others_kept_iff_removal :
    let c : Converter := .ofTable .group .group {} .empty
    let members := [referenceEntry "managed/alpha_user/u1", referenceEntry "managed/alpha_role/g1"]
    ∃ operations, c.convert (request [entryOf .remove "members[value eq \"u1\"].display" none]) =
        .ok operations ∧
      (others "u1" members).Sublist (GroupStore.ofList.run operations members) := by
  intro c members
  let s : MemberPath := { id := ['u', '1'], behind := ".display".toList, id_closed := by decide }
  have hpath : pathOf [("op", .string "remove"),
      ("path", .string "members[value eq \"u1\"].display")] = .ok s.path := by rfl
  have haccepted : c.entryOperations (entryOf .remove "members[value eq \"u1\"].display" none) =
      .ok [⟨.remove, "/members", some (referenceEntry "managed/alpha_user/u1")⟩] := by rfl
  obtain ⟨hkept, -⟩ := others_kept_iff (rfl : c.type = .group) s .ofList
    (verbOf_text .remove _) hpath haccepted
  exact ⟨_, (convert_single _).trans haccepted, hkept.2 (by decide) members⟩

/-- To replace the display name of a member leaves the user whose identifier is that name, and none
of the members before. -/
theorem renaming_drops_members :
    let c : Converter := .ofTable .group .group {} .empty
    let members := [referenceEntry "managed/alpha_user/u1", referenceEntry "managed/alpha_role/g1"]
    ∃ operations,
      c.convert (request [entryOf .replace "members[value eq \"u1\"].display"
        (some (.string "Bob"))]) = .ok operations ∧
      ∀ store : GroupStore,
        store.run operations members = [referenceEntry "managed/alpha_user/Bob"] ∧
        ¬ (others "u1" members).Sublist (store.run operations members) := by
  intro c members
  let bob := referenceEntry "managed/alpha_user/Bob"
  have haccepted : c.entryOperations (entryOf .replace "members[value eq \"u1\"].display"
      (some (.string "Bob"))) = .ok [⟨.replace, "/members", some (.array [bob])⟩] := by rfl
  refine ⟨_, (convert_single _).trans haccepted, fun store => ?_⟩
  have hrun : store.run [⟨.replace, "/members", some (.array [bob])⟩] members = [bob] :=
    store.apply_replace [bob] members
  refine ⟨hrun, fun hkept => ?_⟩
  have hother : referenceEntry "managed/alpha_role/g1" ∈ others "u1" members :=
    List.mem_filter.2 ⟨List.mem_cons_of_mem _ List.mem_cons_self, by decide⟩
  have hmem := hkept.subset hother
  rw [hrun] at hmem
  exact absurd (congrArg (hasId "g1") (List.mem_singleton.1 hmem)) (by decide)

end Patch

end ScimBridge
