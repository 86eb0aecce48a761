import ScimBridge.Proofs.Patch.Coverage
import ScimBridge.Proofs.Patch.Requests
import ScimBridge.Proofs.Text.LowerCase

/-!
# Adding a member and removing it again

A member that is added to a group becomes a reference into the collection of its type
(`convert_addition`). A filter on its identifier removes the reference into the collection of users
(`convert_selection`). So the two together leave a group as it was iff they mean one collection
(`readded_membership_iff`): a group that is a member of a group is not removed
(`nested_group_stays`).
-/

namespace ScimBridge

/-! ## References -/

namespace Member

/-- Whether a member says that it is a group. -/
def isGroupEntry (fields : Fields Value) : Bool :=
  let type := (Fields.get? fields "type").getD .null
  type.filled && lowered type.shown == "group"

/-- The collection of groups or of users. -/
def collectionOf (collections : Collections) (isGroup : Bool) : String :=
  if isGroup then collections.role else collections.user

theorem collectionOf_eq_user {collections : Collections} {isGroup : Bool} :
    collectionOf collections isGroup = collections.user ↔
      isGroup = false ∨ collections.role = collections.user := by
  cases isGroup <;> simp [collectionOf]

/-- The reference to an object of a collection. -/
def referenceTo (collection id : String) : String := "managed/" ++ collection ++ "/" ++ id

/-- Whether an entry of a member list has a reference. -/
def refersTo (ref : String) (entry : Value) : Bool :=
  (entry.get? "_ref").any fun v => v.text? == some ref

theorem refersTo_referenceEntry (ref other : String) :
    refersTo ref (referenceEntry other) = (other == ref) := by
  show (some other == some ref) = (other == ref)
  rfl

theorem referenceTo_inj {collection other id : String} :
    referenceTo collection id = referenceTo other id ↔ collection = other := by
  refine ⟨fun h => ?_, fun h => h ▸ rfl⟩
  have hlist := congrArg String.toList h
  simp only [referenceTo, String.toList_append, List.append_cancel_left_eq,
    List.append_cancel_right_eq] at hlist
  exact String.toList_inj.1 hlist

theorem reference?_eq {collections : Collections} {fields : Fields Value} {id : String}
    (hid : Fields.get? fields "value" = some (.string id)) (hne : id ≠ "") :
    reference? collections (.object fields) =
      some (referenceTo (collectionOf collections (isGroupEntry fields)) id) := by
  have hshown : (Value.string id).shown ≠ "" := hne
  unfold reference?
  simp only [hid, Option.getD_some, if_neg hshown]
  rfl

end Member

/-- A backend that appends what is added to the members of an object and drops the entries with the
reference of what is removed. -/
structure MemberStore where
  apply : Patch.Operation → List Value → List Value
  apply_add : ∀ entry members,
    apply ⟨.add, "/members/-", some entry⟩ members = members ++ [entry]
  apply_remove : ∀ ref members,
    apply ⟨.remove, "/members", some (Member.referenceEntry ref)⟩ members =
      members.filter fun entry => !Member.refersTo ref entry

namespace MemberStore

/-- Apply operations one after the other. -/
def run (store : MemberStore) (operations : List Patch.Operation) (members : List Value) :
    List Value :=
  Patch.applyAll store.apply operations members

/-- A reference that is added and removed again is gone; if another one is removed, both are seen. -/
theorem run_remove_run_add (store : MemberStore) {ref : String} {members : List Value}
    (hnew : ∀ entry ∈ members, Member.refersTo ref entry = false) (other : String) :
    store.run [⟨.remove, "/members", some (Member.referenceEntry other)⟩]
        (store.run [⟨.add, "/members/-", some (Member.referenceEntry ref)⟩] members) =
      if ref = other then members
      else (members.filter fun entry => !Member.refersTo other entry) ++
        [Member.referenceEntry ref] := by
  show store.apply _ (store.apply _ members) = _
  rw [store.apply_add, store.apply_remove, List.filter_append, List.filter_singleton,
    Member.refersTo_referenceEntry]
  split
  · rename_i heq
    subst heq
    have hkeep : (members.filter fun entry => !Member.refersTo ref entry) = members :=
      List.filter_eq_self.2 fun entry hentry => by rw [hnew entry hentry]; rfl
    simp [hkeep]
  · rename_i hne
    rw [beq_false_of_ne hne]
    rfl

/-- Members and a new reference are not the members. -/
theorem append_ne {ref : String} {members : List Value}
    (hnew : ∀ entry ∈ members, Member.refersTo ref entry = false) (others : List Value) :
    others ++ [Member.referenceEntry ref] ≠ members := by
  rintro rfl
  have hold := hnew (Member.referenceEntry ref) (List.mem_append_right _ List.mem_cons_self)
  rw [Member.refersTo_referenceEntry, beq_self_eq_true] at hold
  cases hold

/-- A list that entries are appended to and dropped from. -/
def ofList : MemberStore where
  apply o members :=
    match o.verb, o.field, o.value with
    | .add, "/members/-", some entry => members ++ [entry]
    | .remove, "/members", some entry =>
      match (entry.get? "_ref").bind Value.text? with
      | some ref => members.filter fun other => !Member.refersTo ref other
      | none => members
    | _, _, _ => members
  apply_add _ _ := rfl
  apply_remove _ _ := rfl

end MemberStore

/-! ## Paths that select a member -/

namespace Patch

/-- The path of the member with an identifier. -/
def selection (id : String) : String := "members[value eq \"" ++ id ++ "\"]"

theorem upToQuote?_append {quote : Char} {cs : List Char} (h : quote ∉ cs) (rest : List Char) :
    upToQuote? quote (cs ++ quote :: rest) = some (cs, rest) := by
  induction cs with
  | nil => simp [upToQuote?]
  | cons c cs ih =>
    rw [List.mem_cons, not_or] at h
    rw [List.cons_append, upToQuote?, if_neg (Ne.symm h.1), ih h.2]
    rfl

/-- A filter begins with a bracket, so what stands before the first one is passed over. -/
theorem selectedId?_append {cs : List Char} (h : '[' ∉ cs) (rest : List Char) :
    selectedId? (cs ++ rest) = selectedId? rest := by
  induction cs with
  | nil => rfl
  | cons c cs ih =>
    rw [List.mem_cons, not_or] at h
    have hnone : valueFilter? (c :: (cs ++ rest)) = none := by
      unfold valueFilter?
      rw [after?, if_neg h.1]
      rfl
    rw [List.cons_append, selectedId?, hnone, ih h.2]

theorem valueFilter?_quoted {cs : List Char} (h : '"' ∉ cs) :
    valueFilter? ("[value eq \"".toList ++ (cs ++ "\"]".toList)) = some cs := by
  have hid : upToQuote? '"' (cs ++ "\"]".toList) = some (cs, [']']) := upToQuote?_append h [']']
  -- each reader takes its piece of the text and leaves the rest to the next one
  generalize cs ++ "\"]".toList = tail at hid ⊢
  have hword : afterWord? ['v', 'a', 'l', 'u', 'e'] (trimStart ("value eq \"".toList ++ tail)) =
      some (" eq \"".toList ++ tail) := rfl
  have hgap : afterGap? (" eq \"".toList ++ tail) = some ("eq \"".toList ++ tail) := rfl
  have hoperator : afterWord? ['e', 'q'] ("eq \"".toList ++ tail) =
      some (" \"".toList ++ tail) := rfl
  have hgap' : afterGap? (" \"".toList ++ tail) = some ('"' :: tail) := rfl
  have hopen : after? ['['] ("[value eq \"".toList ++ tail) =
      some ("value eq \"".toList ++ tail) := rfl
  unfold valueFilter?
  simp only [hopen, hword, hgap, hoperator, hgap', hid, Option.bind_eq_bind, Option.bind_some,
    true_or, if_true]
  rfl

theorem toList_selection (id : String) : (selection id).toList =
    "members".toList ++ ("[value eq \"".toList ++ (id.toList ++ "\"]".toList)) := by
  unfold selection
  simp

/-- The path selects the identifier. -/
theorem selectedId?_selection {id : String} (h : '"' ∉ id.toList) :
    selectedId? (selection id).toList = some id.toList := by
  have hcons : "[value eq \"".toList ++ (id.toList ++ "\"]".toList) =
      '[' :: ("value eq \"".toList ++ (id.toList ++ "\"]".toList)) := rfl
  rw [toList_selection, selectedId?_append (by decide), hcons, selectedId?, ← hcons,
    valueFilter?_quoted h]

theorem isMembers_selection (id : String) : (Target.of (selection id)).isMembers = true := by
  have hunnamed : ∀ urn ∈ schemas, ¬ urn.toList <+: (selection id).toList := by
    intro urn hurn hbegins
    have hhead : urn.toList.head? = some 'u' :=
      (by decide : ∀ urn ∈ schemas, urn.toList.head? = some 'u') urn hurn
    obtain ⟨rest, hrest⟩ := hbegins
    have := congrArg List.head? hrest
    rw [List.head?_append, hhead, toList_selection] at this
    cases this
  have hbegins : "members[".toList <+: (lowered (selection id)).toList := by
    have hlowered : (lowered (selection id)).toList = lowerText (selection id).toList :=
      String.toList_ofList
    have hsame : lowerText "members[".toList = "members[".toList := by decide
    rw [hlowered, ← hsame]
    exact isPrefix_lowerText ⟨"value eq \"".toList ++ (id.toList ++ "\"]".toList),
      (toList_selection id).symm⟩
  have hbracket : beginsWith "members[" (lowered (selection id)) = true :=
    List.isPrefixOf_iff_prefix.2 hbegins
  rw [Converter.target_of_unnamed hunnamed, Target.isMembers]
  simp [hbracket]

theorem bare_selection (id : String) : Bare (selection id) ∧ selection id ≠ "" := by
  have hlist := toList_selection id
  refine ⟨⟨⟨?_, ?_⟩, ?_⟩, ?_⟩
  · intro c hc
    rw [hlist] at hc
    cases hc
    rfl
  · intro c hc
    rw [hlist, ← List.append_assoc, ← List.append_assoc, List.getLast?_append_of_ne_nil _
      (by decide)] at hc
    cases hc
    rfl
  · rw [hlist]
    simp
  · intro hempty
    rw [hempty] at hlist
    cases hlist

/-! ## Requests -/

namespace Converter

variable {c : Converter} (htype : c.type = .group) {id : String} (hne : id ≠ "")

include htype hne

/-- A member that is added becomes a reference into the collection of its type. -/
theorem convert_addition {fields : Fields Value}
    (hid : Fields.get? fields "value" = some (.string id)) :
    c.convert (request [entryOf .add "members" (some (.array [.object fields]))]) =
      .ok [⟨.add, "/members/-", some (Member.referenceEntry (Member.referenceTo
        (Member.collectionOf c.collections (Member.isGroupEntry fields)) id))⟩] := by
  have hbare : Bare "members" := bare_of_all (by decide)
  have hmembers : c.isMembersPath "members" = true := by
    rw [isMembersPath, htype]
    decide
  have hrefs : c.references (.array [.object fields]) = .ok [Member.referenceEntry
      (Member.referenceTo
        (Member.collectionOf c.collections (Member.isGroupEntry fields)) id)] := by
    simp [references, Member.toBackend, Member.reference?_eq hid hne]
  rw [convert_entryOf hbare, Option.getD_some]
  unfold operations
  simp only [hmembers, memberOperations, hrefs]
  rfl

/-- A member that is selected by its identifier is removed as a user. -/
theorem convert_selection (hquote : '"' ∉ id.toList) :
    c.convert (request [entryOf .remove (selection id) none]) =
      .ok [⟨.remove, "/members", some (Member.referenceEntry
        (Member.referenceTo c.collections.user id))⟩] := by
  obtain ⟨hbare, hpath⟩ := bare_selection id
  have hmembers : c.isMembersPath (selection id) = true := by
    rw [isMembersPath, htype, isMembers_selection]
    rfl
  have hbracket : (selection id).toList.contains '[' = true := by
    rw [toList_selection]
    simp
  have href : Member.reference? c.collections (.object [("value", .string id)]) =
      some (Member.referenceTo c.collections.user id) := Member.reference?_eq rfl hne
  have hrefs : c.references (.object [("value", .string id)]) =
      .ok [Member.referenceEntry (Member.referenceTo c.collections.user id)] := by
    simp [references, Member.toBackend, href]
  rw [convert_entryOf hbare, operations, if_neg hpath, if_pos hmembers]
  unfold removeMembers removeReferences
  simp only [hbracket, if_true, selectedId?_selection hquote, String.ofList_toList, hrefs]
  rfl

end Converter

/-! ## The members of a group -/

open Member Converter

/-- A member that is added and then selected to be removed leaves the members as they were iff it is
not a group, or groups and users are in one collection. Else it stays, and a user with its identifier
is gone. -/
theorem readded_membership_iff {c : Converter} (htype : c.type = .group) (store : MemberStore)
    {fields : Fields Value} {id : String}
    (hid : Fields.get? fields "value" = some (.string id)) (hne : id ≠ "")
    (hquote : '"' ∉ id.toList) {members : List Value}
    (hnew : ∀ entry ∈ members, refersTo
      (referenceTo (collectionOf c.collections (isGroupEntry fields)) id) entry = false) :
    ∃ added removed,
      c.convert (request [entryOf .add "members" (some (.array [.object fields]))]) = .ok added ∧
      c.convert (request [entryOf .remove (selection id) none]) = .ok removed ∧
      (store.run removed (store.run added members) = members ↔
        isGroupEntry fields = false ∨ c.collections.role = c.collections.user) ∧
      (isGroupEntry fields = true → c.collections.role ≠ c.collections.user →
        store.run removed (store.run added members) =
          (members.filter fun entry => !refersTo (referenceTo c.collections.user id) entry) ++
            [referenceEntry (referenceTo c.collections.role id)]) := by
  have hrun := store.run_remove_run_add hnew (referenceTo c.collections.user id)
  refine ⟨_, _, convert_addition htype hne hid, convert_selection htype hne hquote, ?_, ?_⟩
  · rw [hrun]
    by_cases hsame : collectionOf c.collections (isGroupEntry fields) = c.collections.user
    · rw [if_pos (referenceTo_inj.2 hsame)]
      exact iff_of_true rfl (collectionOf_eq_user.1 hsame)
    · rw [if_neg (mt referenceTo_inj.1 hsame)]
      exact iff_of_false (MemberStore.append_ne hnew _) (mt collectionOf_eq_user.2 hsame)
  · intro hgroup hother
    have hother' : collectionOf c.collections true ≠ c.collections.user := hother
    rw [hgroup] at hrun ⊢
    rw [hrun, if_neg (mt referenceTo_inj.1 hother')]
    rfl

/-- A user of a group that has another one. -/
theorem readded_membership_iff_user :
    let c : Converter := .ofTable .group .group {} .empty
    let fields : Fields Value := [("value", .string "u-1"), ("type", .string "user")]
    let members := [referenceEntry "managed/alpha_user/u-2"]
    ∃ added removed,
      c.convert (request [entryOf .add "members" (some (.array [.object fields]))]) = .ok added ∧
      c.convert (request [entryOf .remove (selection "u-1") none]) = .ok removed ∧
      MemberStore.ofList.run removed (MemberStore.ofList.run added members) = members := by
  intro c fields members
  obtain ⟨added, removed, hadded, hremoved, hiff, -⟩ :=
    readded_membership_iff (rfl : c.type = .group) .ofList
      (rfl : Fields.get? fields "value" = some (.string "u-1")) (by decide) (by decide)
      (by decide : ∀ entry ∈ members, refersTo
        (referenceTo (collectionOf c.collections (isGroupEntry fields)) "u-1") entry = false)
  exact ⟨added, removed, hadded, hremoved, hiff.2 (.inl (by decide))⟩

/-- A group that is added to a group without members is not removed: what is removed is a user with
its identifier. -/
theorem nested_group_stays :
    let c : Converter := .ofTable .group .group {} .empty
    let fields : Fields Value := [("value", .string "g1"), ("type", .string "Group")]
    ∃ added removed,
      c.convert (request [entryOf .add "members" (some (.array [.object fields]))]) = .ok added ∧
      c.convert (request [entryOf .remove "members[value eq \"g1\"]" none]) = .ok removed ∧
      ∀ store : MemberStore,
        store.run removed (store.run added []) = [referenceEntry "managed/alpha_role/g1"] := by
  intro c fields
  have hrole : referenceTo (collectionOf c.collections (isGroupEntry fields)) "g1" =
      "managed/alpha_role/g1" := by decide
  have huser : referenceTo c.collections.user "g1" = "managed/alpha_user/g1" := by decide
  have hpath : selection "g1" = "members[value eq \"g1\"]" := by decide
  have hadded := convert_addition (rfl : c.type = .group) (by decide : "g1" ≠ "")
    (rfl : Fields.get? fields "value" = some (.string "g1"))
  have hremoved := convert_selection (rfl : c.type = .group) (by decide : "g1" ≠ "") (by decide)
  rw [hrole] at hadded
  rw [huser, hpath] at hremoved
  refine ⟨_, _, hadded, hremoved, fun store => ?_⟩
  rw [store.run_remove_run_add (by simp), if_neg (by decide)]
  rfl

end Patch

end ScimBridge
