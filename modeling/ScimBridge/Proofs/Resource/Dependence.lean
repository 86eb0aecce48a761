import ScimBridge.Proofs.Resource.Begun
import ScimBridge.Proofs.Resource.Shared

/-!
# What a user resource depends on

A user resource is made of the attributes that are read, those of `readNames`: two backend users
that agree on them have the same resource, or both have none (`ofBackend_congr`). Beside the
attributes a resource is made of the objects that the backend keeps under them, and these are reached
through read attributes only.
-/

namespace ScimBridge

namespace User

variable {c : MappingConfig} {user other : Fields Value}

/-- Two backend users agree on what is read: each attribute has the same value in both, or is missing
in both. -/
def Agree (c : MappingConfig) (user other : Fields Value) : Prop :=
  ∀ name ∈ readNames c, user.get? name = other.get? name

theorem agree_view : Agree c (view c user) user := fun _ h => get?_view h

/-! ## What is begun -/

section

variable (h : Agree c user other)

include h

theorem Agree.given? {name : String} (hname : name ∈ readNames c) :
    Value.given? user name = Value.given? other name := by
  unfold Value.given?
  rw [h name hname]

theorem Agree.filled? {name : String} (hname : name ∈ readNames c) :
    Value.filled? user name = Value.filled? other name := by
  unfold Value.filled?
  rw [h name hname]

theorem usesEnterprise_congr : usesEnterprise c user = usesEnterprise c other := by
  rw [Bool.eq_iff_iff]
  simp only [usesEnterprise, List.any_eq_true]
  refine exists_congr fun m => and_congr_right fun hm => ?_
  rw [h.given? (mem_readNames_of_mapping hm)]

theorem schemasOf_congr : schemasOf c user = schemasOf c other := by
  unfold schemasOf
  rw [usesEnterprise_congr h]

theorem identifierOf_congr : identifierOf user = identifierOf other := by
  unfold identifierOf
  rw [h "_id" (mem_readNames_of_usual (by decide))]

omit h in
theorem placed_congr {present? : Fields Value → String → Option Value}
    {names : List (String × String)}
    (hnames : ∀ p ∈ names, present? user p.1 = present? other p.1) :
    placed present? user names = placed present? other names :=
  List.filterMap_congr fun p hp => by dsimp only; rw [hnames p hp]

theorem coreMembers_congr : coreMembers user = coreMembers other := by
  have hsame : ∀ names : List String, (∀ n ∈ names, n ∈ readNames .empty) →
      placed Value.given? user (names.map fun n => (n, n)) =
        placed Value.given? other (names.map fun n => (n, n)) := by
    intro names hnames
    refine placed_congr fun p hp => ?_
    obtain ⟨n, hn, rfl⟩ := List.mem_map.1 hp
    exact h.given? (mem_readNames_of_usual (hnames n hn))
  have hfilled : ∀ names : List (String × String), (∀ p ∈ names, p.1 ∈ readNames .empty) →
      placed Value.filled? user names = placed Value.filled? other names := fun names hnames =>
    placed_congr fun p hp => h.filled? (mem_readNames_of_usual (hnames p hp))
  have hstatus : user.get? "accountStatus" = other.get? "accountStatus" :=
    h _ (mem_readNames_of_usual (by decide))
  unfold coreMembers
  simp only [hstatus, hsame ["userName", "displayName"] (by decide),
    hsame passedThrough (by decide), hfilled nameParts (by decide),
    hfilled (contacts.map Prod.swap) (by decide)]

omit h in
/-- What is begun names attributes that are read only. -/
theorem within_begun :
    Draft.WithinMembers (· ∈ readNames c) (begun c user).resource := by
  have hheld : ∀ {d}, Held c user d → d.Within (· ∈ readNames c) := by
    intro d hd
    cases hd with
    | value v => trivial
    | placed hread hv => exact Draft.within_place hread _
    | contact hread hv => exact ⟨⟨Draft.within_place hread _, trivial, trivial, trivial⟩, trivial⟩
  refine Draft.withinMembers_iff.2 fun ⟨name, d⟩ hmem => ?_
  rcases usual_or_name hmem with ⟨-, hd⟩ | ⟨-, rfl⟩
  · exact hheld hd
  · exact Draft.withinMembers_iff.2 fun ⟨part, d⟩ hpart => hheld (held_of_mem_nameDrafts hpart).2

theorem alike_begun : Making.Alike (· ∈ readNames c) (begun c user) (begun c other) where
  resource := by
    unfold begun
    rw [schemasOf_congr h, identifierOf_congr h, coreMembers_congr h]
  shared name hname := by
    show (Making.sharedOf user).get? name = (Making.sharedOf other).get? name
    rw [Making.get?_sharedOf, Making.get?_sharedOf, h name hname]
  within := within_begun
  inside name members _ hmembers := by
    have hvalues : (Making.sharedOf user).get? name = some members := hmembers
    rw [Making.get?_sharedOf] at hvalues
    obtain ⟨values, -, rfl⟩ := Option.map_eq_some_iff.1 hvalues
    exact Draft.withinMembers_ofMembers values

/-! ## What is written -/

theorem Agree.step {m m' : Making} (hm : Making.Alike (· ∈ readNames c) m m') {mapping : Mapping}
    (hmapping : mapping ∈ c.mappings) :
    Making.Alike (· ∈ readNames c) (writeMapped user m mapping) (writeMapped other m' mapping) := by
  have hread := mem_readNames_of_mapping hmapping
  unfold writeMapped
  rw [h.given? hread]
  cases Value.given? other mapping.backendAttribute with
  | none => exact hm
  | some v => exact hm.write (Draft.within_place hread v) _

theorem Agree.run {mappings : List Mapping} (hsub : mappings ⊆ c.mappings) {m m' : Making}
    (hm : Making.Alike (· ∈ readNames c) m m') :
    Making.Alike (· ∈ readNames c) (mappings.foldl (writeMapped user) m)
      (mappings.foldl (writeMapped other) m') := by
  induction mappings generalizing m m' with
  | nil => exact hm
  | cons mapping rest ih =>
    exact ih (fun _ hx => hsub (List.mem_cons_of_mem _ hx))
      (h.step hm (hsub List.mem_cons_self))

omit h in
theorem stamps_congr {m m' : Making} (hm : Making.Alike (· ∈ readNames c) m m') :
    stamps m = stamps m' := by
  have hread : "_meta" ∈ readNames c := mem_readNames_of_usual (by decide)
  have hvalues : ∀ members : Fields Draft, Draft.WithinMembers (· ∈ readNames c) members →
      members.mapM (fun p => do return (p.1, ← m.value p.2)) =
        members.mapM (fun p => do return (p.1, ← m'.value p.2)) := by
    intro members hmembers
    induction members with
    | nil => rfl
    | cons p rest ih => rw [List.mapM_cons, List.mapM_cons, hm.value hmembers.1, ih hmembers.2]
  unfold stamps
  rw [← hm.shared _ hread]
  extract_lets kept
  refine hvalues _ (Draft.withinMembers_iff.2 fun p hp => ?_)
  have hkept : Draft.WithinMembers (· ∈ readNames c) kept := by
    cases hget : m.shared.get? "_meta" with
    | none =>
      have hnone : kept = [] := by simp [kept, hget]
      rw [hnone]
      trivial
    | some members =>
      have hsome : kept = members := by simp [kept, hget]
      rw [hsome]
      exact hm.inside _ members hread hget
  exact Draft.withinMembers_iff.1 hkept p (List.mem_filter.1 hp).1

/-- Users that agree on what is read have the same resource. -/
theorem ofBackend_congr (baseUrl : String) :
    ofBackend baseUrl c user = ofBackend baseUrl c other := by
  have hm := h.run (List.Subset.refl _) (alike_begun h)
  have hid : (identifierOf other).Within (· ∈ readNames c) := by
    unfold identifierOf
    cases other.get? "_id" with
    | none => trivial
    | some v => exact Draft.within_place (mem_readNames_of_usual (by decide)) v
  have hrev : "_rev" ∈ readNames c := mem_readNames_of_usual (by decide)
  unfold ofBackend
  rw [identifierOf_congr h, h.given? hrev]
  simp only [hm.finished, hm.text hid, hm.text (Draft.within_place hrev _), stamps_congr hm]

end

/-! ## The view of a user -/

theorem identifierOf_view : identifierOf (view c user) = identifierOf user :=
  identifierOf_congr agree_view

theorem schemasOf_view : schemasOf c (view c user) = schemasOf c user := schemasOf_congr agree_view

/-- A user may be taken for what is read of it. -/
theorem ofBackend_view (baseUrl : String) (c : MappingConfig) (user : Fields Value) :
    ofBackend baseUrl c (view c user) = ofBackend baseUrl c user :=
  ofBackend_congr agree_view baseUrl

end User

end ScimBridge
