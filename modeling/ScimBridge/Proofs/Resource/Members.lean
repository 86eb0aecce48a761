import ScimBridge.Proofs.Patch.Membership
import ScimBridge.Proofs.Text.Cut

/-!
# Members of a group, written and read

What is written for a member is a reference into the collection of its type, and what is read is
whether the name of that collection ends in `_role`. So every entry with an identifier comes back
with it, in its place (`listOfBackend_toBackend`), but its type comes back iff the collection of
groups has a name with that ending and the collection of users has not (`members_come_back_iff`).
With other names, a group that is written is read as a user (`group_read_as_user`).
-/

namespace ScimBridge

namespace Member

/-! ## Entries -/

/-- What an entry of a member list gives as its identifier: an object its value, anything else
itself. -/
def givenId : Value → Value
  | .object fields => (Fields.get? fields "value").getD .null
  | v => v

/-- Whether an entry of a member list says that it is a group. -/
def saysGroup : Value → Bool
  | .object fields => isGroupEntry fields
  | _ => false

/-- An entry whose identifier is missing, or a text without a slash. -/
def WellFormed (member : Value) : Prop :=
  givenId member = .null ∨ ∃ id, givenId member = .string id ∧ '/' ∉ id.toList

/-- The identifier of an entry that has one, and whether the entry says that it is a group. -/
def said? (member : Value) : Option (String × Bool) :=
  match givenId member with
  | .string id => if id = "" then none else some (id, saysGroup member)
  | _ => none

theorem said?_eq_some {member : Value} (h : WellFormed member) {id : String} {isGroup : Bool}
    (hsaid : said? member = some (id, isGroup)) : id ≠ "" ∧ '/' ∉ id.toList := by
  unfold said? at hsaid
  rcases h with hnull | ⟨given, hgiven, hslash⟩
  · rw [hnull] at hsaid
    cases hsaid
  · rw [hgiven] at hsaid
    by_cases hempty : given = ""
    · simp [hempty] at hsaid
    · simp only [if_neg hempty, Option.some.injEq, Prod.mk.injEq] at hsaid
      rw [← hsaid.1]
      exact ⟨hempty, hslash⟩

/-! ## References -/

variable {c : Collections} {collection id : String}

/-- What an entry gives and says decides its reference. -/
theorem reference?_eq_given (member : Value) : reference? c member =
    match givenId member with
    | .null => none
    | given => if given.shown = "" then none
        else some (referenceTo (collectionOf c (saysGroup member)) given.shown) := by
  cases member <;> rfl

theorem reference?_eq_said {member : Value} (h : WellFormed member) :
    reference? c member = (said? member).map fun p => referenceTo (collectionOf c p.2) p.1 := by
  rw [reference?_eq_given, said?]
  rcases h with hnull | ⟨given, hgiven, -⟩
  · rw [hnull]
    rfl
  · rw [hgiven]
    show (if given = "" then none else _) = (if given = "" then none else _ : Option _).map _
    split <;> rfl

/-- A reference is cut into the collection and the identifier. -/
theorem ofReference_referenceTo (hcollection : '/' ∉ collection.toList) (hid : '/' ∉ id.toList) :
    ofReference (some (.string (referenceTo collection id))) =
      (.string id, isRoleCollection collection) := by
  have hlist : (referenceTo collection id).toList =
      "managed".toList ++ '/' :: (collection.toList ++ '/' :: id.toList) := by
    simp [referenceTo]
  have hcut : cutText '/' (referenceTo collection id) = ["managed", collection, id] := by
    rw [cutText, hlist, cutAt_append, cutAt_append, cutAt_of_not_mem hcollection,
      cutAt_of_not_mem hid, cutAt_of_not_mem (by decide)]
    simp
  unfold ofReference
  simp only [hcut]
  rfl

theorem ofBackend_referenceEntry (hcollection : '/' ∉ collection.toList) (hid : '/' ∉ id.toList)
    (hne : id ≠ "") (base : String) :
    ofBackend base (referenceEntry (referenceTo collection id)) =
      .ok (some (entry base (.string id) (isRoleCollection collection))) := by
  have href : Fields.get? [("_ref", Value.string (referenceTo collection id))] "_ref" =
      some (.string (referenceTo collection id)) := (Fields.get?_cons _ _ _ _).trans (if_pos rfl)
  have hresolved : Value.filled? [("_ref", Value.string (referenceTo collection id))]
      "_refResourceId" = none := rfl
  have hfilled : (Value.string id).filled = true := bne_iff_ne.2 hne
  unfold ofBackend referenceEntry
  simp only [href, ofReference_referenceTo hcollection hid, hresolved]
  show Except.ok (if (Value.string id).filled = true then _ else none) = _
  rw [if_pos hfilled]

/-! ## Member lists -/

section

variable (huser : '/' ∉ c.user.toList) (hrole : '/' ∉ c.role.toList)
  {members : List Value} (hmembers : ∀ member ∈ members, WellFormed member)

include hmembers in
theorem toBackend_eq_said : toBackend c (.array members) =
    (members.filterMap said?).map fun p =>
      referenceEntry (referenceTo (collectionOf c p.2) p.1) := by
  have hreferences : members.filterMap (reference? c) =
      members.filterMap fun member =>
        (said? member).map fun p => referenceTo (collectionOf c p.2) p.1 :=
    List.filterMap_congr fun member hmember => reference?_eq_said (hmembers member hmember)
  unfold toBackend
  simp only [hreferences, ← List.map_filterMap, List.map_map]
  rfl

include huser hrole in
theorem slash_not_mem_collectionOf (isGroup : Bool) :
    '/' ∉ (collectionOf c isGroup).toList := by
  cases isGroup
  · exact huser
  · exact hrole

include huser hrole hmembers in
/-- Each entry with an identifier comes back in its place, as a group iff the collection that it was
written to is one of roles. -/
theorem listOfBackend_toBackend (base : String) :
    listOfBackend base (.array (toBackend c (.array members))) =
      .ok ((members.filterMap said?).map fun p =>
        entry base (.string p.1) (isRoleCollection (collectionOf c p.2))) := by
  have hread : (toBackend c (.array members)).mapM (ofBackend base) =
      .ok ((members.filterMap said?).map fun p =>
        some (entry base (.string p.1) (isRoleCollection (collectionOf c p.2)))) := by
    rw [toBackend_eq_said hmembers, mapM_eq_ok_iff, List.forall₂_map_left_iff,
      List.forall₂_map_right_iff, List.forall₂_same]
    rintro ⟨id, isGroup⟩ hp
    obtain ⟨member, hmember, hsaid⟩ := List.mem_filterMap.1 hp
    obtain ⟨hne, hid⟩ := said?_eq_some (hmembers member hmember) hsaid
    exact ofBackend_referenceEntry (slash_not_mem_collectionOf huser hrole isGroup) hid hne base
  unfold listOfBackend
  simp only [hread]
  show Except.ok (List.filterMap id _) = _
  rw [List.filterMap_map]
  simp

end

theorem entry_type {base : String} {id : Value} {isGroup other : Bool}
    (h : entry base id isGroup = entry base id other) : isGroup = other := by
  have htype : ∀ isGroup, ((entry base id isGroup).get? "type").bind Value.text? =
      some (if isGroup then "Group" else "User") := fun _ => rfl
  have htypes := (htype isGroup).symm.trans (h ▸ htype other)
  revert htypes
  cases isGroup <;> cases other <;> decide

/-- Every list of entries comes back with its identifiers and types iff the name of the collection of
groups ends as that of a collection of roles, and the name of the collection of users does not. -/
theorem members_come_back_iff (huser : '/' ∉ c.user.toList) (hrole : '/' ∉ c.role.toList) :
    (∀ (base : String) (members : List Value), (∀ member ∈ members, WellFormed member) →
      listOfBackend base (.array (toBackend c (.array members))) =
        .ok ((members.filterMap said?).map fun p => entry base (.string p.1) p.2)) ↔
      isRoleCollection c.role = true ∧ isRoleCollection c.user = false := by
  constructor
  · intro h
    let both : List Value :=
      [.object [("value", .string "m"), ("type", .string "Group")], .string "m"]
    have hboth : ∀ member ∈ both, WellFormed member := by
      intro member hmember
      refine .inr ⟨"m", ?_, by decide⟩
      rcases List.mem_cons.1 hmember with rfl | hmember
      · rfl
      · rw [List.mem_singleton.1 hmember]
        rfl
    have hsaid : both.filterMap said? = [("m", true), ("m", false)] := by decide
    have hread := (listOfBackend_toBackend huser hrole hboth "").symm.trans (h "" both hboth)
    rw [hsaid] at hread
    obtain ⟨hgroup, hrest⟩ := List.cons.inj (Except.ok.inj hread)
    exact ⟨entry_type hgroup, entry_type (List.cons.inj hrest).1⟩
  · rintro ⟨hroles, husers⟩ base members hmembers
    rw [listOfBackend_toBackend huser hrole hmembers]
    have htypes : ∀ isGroup, isRoleCollection (collectionOf c isGroup) = isGroup := by
      rintro (_ | _)
      · exact husers
      · exact hroles
    simp only [htypes]

/-- A group, a user and an entry without an identifier, in collections with the usual names. -/
theorem members_come_back_iff_usual :
    let members : List Value :=
      [.object [("value", .string "g1"), ("type", .string "GROUP")], .string "u1", .object []]
    listOfBackend "/scim/v2" (.array (toBackend {} (.array members))) =
      .ok [entry "/scim/v2" (.string "g1") true, entry "/scim/v2" (.string "u1") false] := by
  intro members
  have hmembers : ∀ member ∈ members, WellFormed member := by
    intro member hmember
    simp only [members, List.mem_cons, List.not_mem_nil, or_false] at hmember
    rcases hmember with rfl | rfl | rfl
    · exact .inr ⟨"g1", rfl, by decide⟩
    · exact .inr ⟨"u1", rfl, by decide⟩
    · exact .inl rfl
  exact (members_come_back_iff (c := {}) (by decide) (by decide)).2 ⟨by decide, by decide⟩ "/scim/v2"
    members hmembers

/-- With another name for the collection of groups, a group is read as a user. -/
theorem group_read_as_user :
    let c : Collections := { role := "alpha_group" }
    let members : List Value := [.object [("value", .string "g1"), ("type", .string "Group")]]
    let read := listOfBackend "/scim/v2" (.array (toBackend c (.array members)))
    read = .ok [entry "/scim/v2" (.string "g1") false] ∧
      read ≠ .ok [entry "/scim/v2" (.string "g1") true] := by
  intro c members read
  have hmembers : ∀ member ∈ members, WellFormed member := by
    intro member hmember
    rw [List.mem_singleton.1 hmember]
    exact .inr ⟨"g1", rfl, by decide⟩
  have hsaid : members.filterMap said? = [("g1", true)] := by decide
  have hkind : isRoleCollection (collectionOf c true) = false := by decide
  have hread : read = .ok [entry "/scim/v2" (.string "g1") false] := by
    rw [show read = _ from listOfBackend_toBackend (by decide) (by decide) hmembers "/scim/v2",
      hsaid, List.map_singleton, hkind]
  refine ⟨hread, fun h => ?_⟩
  have htypes := entry_type (List.cons.inj (Except.ok.inj (hread.symm.trans h))).1
  cases htypes

end Member

end ScimBridge
