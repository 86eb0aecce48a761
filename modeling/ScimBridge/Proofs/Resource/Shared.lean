import Mathlib.Data.Finset.Card
import Mathlib.Order.Monotone.Basic
import ScimBridge.Proofs.Resource.Drafts

/-!
# Shared objects that are reached

The nodes of a resource in the making name the attributes whose objects stand there
(`Draft.Within`). Whatever is made of such nodes depends on the objects that are reached from them
and on no other one, neither on how many others there are:

1. Values and texts of a node depend on what is known of the attributes that it names
   (`expand_congr`, `inner_congr`).
2. The value of a shared object is found at a depth that the number of objects bounds, and going
   deeper does not change it (`sharedValue?_of_length_le`): the set of attributes with a value grows
   with the depth and stays once it does not grow.
3. The text of a shared object is found in fewer steps than there are attributes that may still come
   around it (`sharedText_congr`).
4. Two makings whose reached objects are the same (`Making.Alike`) stay so when they are written
   into, and have the same values and texts.
-/

namespace ScimBridge

open Resource

namespace Draft

variable {P : String → Prop}

mutual
/-- Every attribute whose object stands in a node has a property. -/
def Within (P : String → Prop) : Draft → Prop
  | .value _ => True
  | .shared origin => P origin
  | .object members => WithinMembers P members
  | .list items => WithinItems P items
def WithinItems (P : String → Prop) : List Draft → Prop
  | [] => True
  | d :: rest => Within P d ∧ WithinItems P rest
def WithinMembers (P : String → Prop) : List (String × Draft) → Prop
  | [] => True
  | (_, d) :: rest => Within P d ∧ WithinMembers P rest
end

theorem withinMembers_iff {members : Fields Draft} :
    WithinMembers P members ↔ ∀ p ∈ members, Within P p.2 := by
  induction members with
  | nil => simp [WithinMembers]
  | cons p rest ih => simp [WithinMembers, ih]

mutual
/-- A plain value names no attribute. -/
theorem within_ofValue (v : Value) : Within P (ofValue v) := by
  cases v with
  | object members => exact withinMembers_ofMembers members
  | _ => trivial
theorem withinMembers_ofMembers (members : List (String × Value)) :
    WithinMembers P (ofMembers members) := by
  cases members with
  | nil => trivial
  | cons p rest => exact ⟨within_ofValue p.2, withinMembers_ofMembers rest⟩
end

theorem within_place {origin : String} (h : P origin) (v : Value) : Within P (place origin v) := by
  cases v with
  | object members => exact h
  | _ => trivial

theorem withinMembers_put {fs : Fields Draft} (hfs : WithinMembers P fs) {d : Draft}
    (hd : Within P d) (name : String) : WithinMembers P (fs.put name d) := by
  refine withinMembers_iff.2 fun p hp => ?_
  rcases Fields.mem_put hp with hnew | hold
  · exact hnew ▸ hd
  · exact withinMembers_iff.1 hfs p hold

/-- Writing a node adds no more names than the node has. -/
theorem withinMembers_writeAt {d : Draft} (hd : Within P d) (names : List String)
    {members : Fields Draft} (h : WithinMembers P members) :
    WithinMembers P (writeAt d names members) := by
  induction names generalizing members with
  | nil => exact h
  | cons name names ih =>
    cases names with
    | nil => exact withinMembers_put h hd name
    | cons next rest =>
      unfold writeAt
      split
      · have hnil : WithinMembers P [] := trivial
        exact withinMembers_put h (d := .object _) (ih hnil) name
      · rename_i w hw
        split
        · rename_i inner hinner
          have hmem : Within P w := withinMembers_iff.1 h _ (Fields.mem_of_get? hw)
          rw [eq_object_of_members? hinner] at hmem
          exact withinMembers_put h (d := .object _) (ih hmem) name
        · exact h

mutual
/-- The value of a node depends on the attributes that it names. -/
theorem expand_congr {look look' : String → Option Value} (h : ∀ o, P o → look o = look' o)
    {d : Draft} (hd : Within P d) : expand look d = expand look' d := by
  cases d with
  | value v => rfl
  | shared origin => exact h origin hd
  | object members => rw [expand, expand, expandMembers_congr h hd]
  | list items => rw [expand, expand, expandItems_congr h hd]
theorem expandItems_congr {look look' : String → Option Value} (h : ∀ o, P o → look o = look' o)
    {items : List Draft} (hd : WithinItems P items) :
    expandItems look items = expandItems look' items := by
  cases items with
  | nil => rfl
  | cons d rest => rw [expandItems, expandItems, expand_congr h hd.1, expandItems_congr h hd.2]
theorem expandMembers_congr {look look' : String → Option Value} (h : ∀ o, P o → look o = look' o)
    {members : List (String × Draft)} (hd : WithinMembers P members) :
    expandMembers look members = expandMembers look' members := by
  cases members with
  | nil => rfl
  | cons p rest =>
    obtain ⟨name, d⟩ := p
    rw [expandMembers, expandMembers, expand_congr h hd.1, expandMembers_congr h hd.2]
end

mutual
/-- So does its text. -/
theorem inner_congr {look look' : String → String} (h : ∀ o, P o → look o = look' o) {d : Draft}
    (hd : Within P d) : inner look d = inner look' d := by
  cases d with
  | value v => rfl
  | shared origin => exact h origin hd
  | object members => rw [inner, inner, innerMembers_congr h hd]
  | list items => rw [inner, inner, innerItems_congr h hd]
theorem innerItems_congr {look look' : String → String} (h : ∀ o, P o → look o = look' o)
    {items : List Draft} (hd : WithinItems P items) (separator : String) :
    innerItems look separator items = innerItems look' separator items := by
  cases items with
  | nil => rfl
  | cons d rest => rw [innerItems, innerItems, inner_congr h hd.1, innerItems_congr h hd.2]
theorem innerMembers_congr {look look' : String → String} (h : ∀ o, P o → look o = look' o)
    {members : List (String × Draft)} (hd : WithinMembers P members) (separator : String) :
    innerMembers look separator members = innerMembers look' separator members := by
  cases members with
  | nil => rfl
  | cons p rest =>
    obtain ⟨name, d⟩ := p
    rw [innerMembers, innerMembers, inner_congr h hd.1, innerMembers_congr h hd.2]
end

theorem shown_congr {look look' : String → String} (h : ∀ o, P o → look o = look' o) {d : Draft}
    (hd : Within P d) : shown look d = shown look' d := by
  unfold shown
  split
  · rfl
  · exact inner_congr h hd

mutual
/-- Where more attributes have values, a node keeps its value. -/
theorem expand_mono {look look' : String → Option Value}
    (h : ∀ o v, look o = some v → look' o = some v) {d : Draft} {v : Value}
    (hd : expand look d = some v) : expand look' d = some v := by
  cases d with
  | value w => exact hd
  | shared origin => exact h origin v hd
  | object members =>
    obtain ⟨values, hvalues, rfl⟩ := Option.map_eq_some_iff.1 hd
    rw [expand, expandMembers_mono h hvalues, Option.map_some]
  | list items =>
    obtain ⟨values, hvalues, rfl⟩ := Option.map_eq_some_iff.1 hd
    rw [expand, expandItems_mono h hvalues, Option.map_some]
theorem expandItems_mono {look look' : String → Option Value}
    (h : ∀ o v, look o = some v → look' o = some v) {items : List Draft} {values : List Value}
    (hd : expandItems look items = some values) : expandItems look' items = some values := by
  cases items with
  | nil => exact hd
  | cons d rest =>
    simp only [expandItems, Option.bind_eq_bind, Option.bind_eq_some_iff, Option.pure_def,
      Option.some.injEq] at hd
    obtain ⟨v, hv, others, hothers, rfl⟩ := hd
    simp [expandItems, expand_mono h hv, expandItems_mono h hothers]
theorem expandMembers_mono {look look' : String → Option Value}
    (h : ∀ o v, look o = some v → look' o = some v) {members : List (String × Draft)}
    {values : List (String × Value)} (hd : expandMembers look members = some values) :
    expandMembers look' members = some values := by
  cases members with
  | nil => exact hd
  | cons p rest =>
    obtain ⟨name, d⟩ := p
    obtain ⟨v, others, hv, hothers, rfl⟩ := exists_of_expandMembers_cons hd
    exact expandMembers_cons (expand_mono h hv) (expandMembers_mono h hothers)
end

end Draft

namespace Making

variable {shared shared' : Fields (Fields Draft)}

/-! ## Depth -/

theorem sharedValue?_succ (depth : ℕ) (origin : String) :
    sharedValue? shared (depth + 1) origin = (shared.get? origin).bind fun members =>
      (Draft.expandMembers (sharedValue? shared depth) members).map .object := by
  rw [sharedValue?]
  cases shared.get? origin with
  | none => rfl
  | some members =>
    simp only [Option.bind_eq_bind, Option.bind_some]
    cases Draft.expandMembers (sharedValue? shared depth) members <;> rfl

/-- What has a value keeps it farther down. -/
theorem sharedValue?_mono_succ (depth : ℕ) {origin : String} {v : Value}
    (h : sharedValue? shared depth origin = some v) :
    sharedValue? shared (depth + 1) origin = some v := by
  induction depth generalizing origin v with
  | zero => cases h
  | succ depth ih =>
    rw [sharedValue?_succ] at h ⊢
    obtain ⟨members, hmembers, h⟩ := Option.bind_eq_some_iff.1 h
    obtain ⟨values, hvalues, rfl⟩ := Option.map_eq_some_iff.1 h
    have hdeeper := Draft.expandMembers_mono (fun o w ho => ih ho) hvalues
    rw [hmembers, Option.bind_some, hdeeper, Option.map_some]

theorem sharedValue?_mono {depth depth' : ℕ} (hle : depth ≤ depth') {origin : String} {v : Value}
    (h : sharedValue? shared depth origin = some v) :
    sharedValue? shared depth' origin = some v := by
  induction depth', hle using Nat.le_induction with
  | base => exact h
  | succ depth' _ ih => exact sharedValue?_mono_succ depth' ih

/-- The attributes whose objects have a value at a depth. -/
def valued (shared : Fields (Fields Draft)) (depth : ℕ) : Finset String :=
  shared.keys.toFinset.filter fun o => (sharedValue? shared depth o).isSome

theorem valued_mono : Monotone (valued shared) := by
  intro depth depth' hle o ho
  obtain ⟨hkey, hsome⟩ := Finset.mem_filter.1 ho
  obtain ⟨v, hv⟩ := Option.isSome_iff_exists.1 hsome
  exact Finset.mem_filter.2 ⟨hkey, by rw [sharedValue?_mono hle hv]; rfl⟩

theorem card_valued_le (depth : ℕ) : (valued shared depth).card ≤ shared.length :=
  calc (valued shared depth).card ≤ shared.keys.toFinset.card := Finset.card_filter_le _ _
    _ ≤ shared.keys.length := List.toFinset_card_le _
    _ = shared.length := List.length_map _

/-- Where no more attributes have a value farther down, all have the same one there. -/
theorem sharedValue?_eq_of_card {depth depth' : ℕ} (hle : depth ≤ depth')
    (hcard : (valued shared depth).card = (valued shared depth').card) :
    sharedValue? shared depth = sharedValue? shared depth' := by
  have hvalued : valued shared depth = valued shared depth' :=
    Finset.eq_of_subset_of_card_le (valued_mono hle) hcard.ge
  funext o
  cases hv : sharedValue? shared depth' o with
  | none =>
    cases hw : sharedValue? shared depth o with
    | none => rfl
    | some w =>
      rw [sharedValue?_mono hle hw] at hv
      cases hv
  | some v =>
    obtain ⟨below, rfl⟩ : ∃ below, depth' = below + 1 := by
      cases depth' with
      | zero => cases hv
      | succ below => exact ⟨below, rfl⟩
    have hkey : o ∈ shared.keys := by
      rw [sharedValue?_succ] at hv
      obtain ⟨members, hmembers, -⟩ := Option.bind_eq_some_iff.1 hv
      exact Fields.isSome_get?_iff.1 (by rw [hmembers]; rfl)
    have ho : o ∈ valued shared (below + 1) :=
      Finset.mem_filter.2 ⟨List.mem_toFinset.2 hkey, by rw [hv]; rfl⟩
    rw [← hvalued] at ho
    obtain ⟨w, hw⟩ := Option.isSome_iff_exists.1 (Finset.mem_filter.1 ho).2
    rw [hw, ← sharedValue?_mono hle hw, hv]

/-- Deeper than there are objects, nothing changes any more. -/
theorem sharedValue?_of_length_le {depth : ℕ} (h : shared.length ≤ depth) :
    sharedValue? shared depth = sharedValue? shared shared.length := by
  have hcard : (valued shared depth).card = (valued shared shared.length).card := by
    refine Nat.stabilises_of_monotone (f := fun n => (valued shared n).card)
      (fun _ _ hle => Finset.card_le_card (valued_mono hle)) card_valued_le (fun n hn => ?_) h
    -- once nothing new has a value, the next depth sees what this one sees
    have heq := sharedValue?_eq_of_card (Nat.le_succ n) hn
    have hnext : sharedValue? shared (n + 1) = sharedValue? shared (n + 2) := by
      funext o
      rw [sharedValue?_succ, sharedValue?_succ, heq]
    show (valued shared (n + 1)).card = (valued shared (n + 2)).card
    unfold valued
    rw [hnext]
  exact (sharedValue?_eq_of_card h hcard.symm).symm

/-! ## Objects that are reached -/

section

variable {P : String → Prop} (hshared : ∀ o, P o → shared.get? o = shared'.get? o)
  (hinside : ∀ o members, P o → shared.get? o = some members → Draft.WithinMembers P members)

include hshared hinside

/-- The value of an object depends on the objects that are reached from it. -/
theorem sharedValue?_congr (depth : ℕ) {o : String} (ho : P o) :
    sharedValue? shared depth o = sharedValue? shared' depth o := by
  induction depth generalizing o with
  | zero => rfl
  | succ depth ih =>
    rw [sharedValue?_succ, sharedValue?_succ, ← hshared o ho]
    cases hmembers : shared.get? o with
    | none => rfl
    | some members =>
      have hwithin := hinside o members ho hmembers
      simp only [Option.bind_some]
      rw [Draft.expandMembers_congr (fun _ hp => ih hp) hwithin]

/-- So does its text, whatever is left of the steps, as long as they are more than the attributes
that may still come. -/
theorem sharedText_congr {K : Finset String} (hK : ∀ o, P o → (shared.get? o).isSome → o ∈ K)
    {depth depth' : ℕ} {around : List String} (hdepth : (K \ around.toFinset).card < depth)
    (hdepth' : (K \ around.toFinset).card < depth') {o : String} (ho : P o) :
    sharedText shared depth around o = sharedText shared' depth' around o := by
  induction depth generalizing depth' around o with
  | zero => omega
  | succ depth ih =>
    obtain ⟨rest, rfl⟩ : ∃ rest, depth' = rest + 1 := ⟨depth' - 1, by omega⟩
    unfold sharedText
    by_cases haround : around.contains o = true
    · rw [if_pos haround, if_pos haround]
    rw [if_neg haround, if_neg haround, ← hshared o ho]
    cases hmembers : shared.get? o with
    | none => exact Draft.inner_congr (P := fun _ => False) (fun _ => False.elim) trivial
    | some members =>
      have hnew : o ∈ K \ around.toFinset := by
        refine Finset.mem_sdiff.2 ⟨hK o ho (by rw [hmembers]; rfl), fun hmem => haround ?_⟩
        exact List.contains_iff_mem.2 (List.mem_toFinset.1 hmem)
      have hfewer : (K \ (o :: around).toFinset).card < (K \ around.toFinset).card := by
        rw [List.toFinset_cons, Finset.sdiff_insert]
        exact Finset.card_erase_lt_of_mem hnew
      exact Draft.inner_congr (fun o' ho' => ih (by omega) (by omega) ho')
        (hinside o members ho hmembers)

end

/-! ## Makings with the same objects -/

/-- Two makings of one resource whose objects are the same as far as they are reached: from what has
a property, only what has it. -/
structure Alike (P : String → Prop) (m m' : Making) : Prop where
  resource : m.resource = m'.resource
  shared : ∀ o, P o → m.shared.get? o = m'.shared.get? o
  within : Draft.WithinMembers P m.resource
  inside : ∀ o members, P o → m.shared.get? o = some members → Draft.WithinMembers P members

namespace Alike

variable {P : String → Prop} {m m' : Making} (h : Alike P m m')

include h

theorem look? {o : String} (ho : P o) : m.look? o = m'.look? o := by
  have hdeep : m.look? o =
      sharedValue? m.shared (max m.shared.length m'.shared.length) o := by
    rw [sharedValue?_of_length_le (Nat.le_max_left _ _), Making.look?]
  have hdeep' : m'.look? o =
      sharedValue? m'.shared (max m.shared.length m'.shared.length) o := by
    rw [sharedValue?_of_length_le (Nat.le_max_right _ _), Making.look?]
  rw [hdeep, hdeep']
  exact sharedValue?_congr h.shared h.inside _ ho

theorem value {d : Draft} (hd : d.Within P) : m.value d = m'.value d := by
  unfold Making.value
  rw [Draft.expand_congr (fun _ ho => h.look? ho) hd]

theorem finished : m.finished = m'.finished := by
  unfold Making.finished
  rw [← h.resource, Draft.expandMembers_congr (fun _ ho => h.look? ho) h.within]

theorem text {d : Draft} (hd : d.Within P) : m.text d = m'.text d := by
  classical
  let K := m.shared.keys.toFinset.filter P
  have hK : ∀ o, P o → (m.shared.get? o).isSome → o ∈ K := fun o ho hsome =>
    Finset.mem_filter.2 ⟨List.mem_toFinset.2 (Fields.isSome_get?_iff.1 hsome), ho⟩
  have hkeys : ∀ {n : Making}, (∀ o ∈ K, (n.shared.get? o).isSome) →
      (K \ ([] : List String).toFinset).card < n.shared.length + 1 := by
    intro n hn
    have hsub : K ⊆ n.shared.keys.toFinset := fun o ho =>
      List.mem_toFinset.2 (Fields.isSome_get?_iff.1 (hn o ho))
    have hcard : K.card ≤ n.shared.keys.length :=
      (Finset.card_le_card hsub).trans (List.toFinset_card_le _)
    rw [Fields.keys, List.length_map] at hcard
    simpa using Nat.lt_succ_of_le hcard
  have hsome : ∀ o ∈ K, (m.shared.get? o).isSome := fun o ho =>
    Fields.isSome_get?_iff.2 (List.mem_toFinset.1 (Finset.mem_filter.1 ho).1)
  have hsome' : ∀ o ∈ K, (m'.shared.get? o).isSome := fun o ho => by
    rw [← h.shared o (Finset.mem_filter.1 ho).2]
    exact hsome o ho
  have htext : ∀ o, P o → sharedText m.shared (m.shared.length + 1) [] o =
      sharedText m'.shared (m'.shared.length + 1) [] o := fun o ho =>
    sharedText_congr h.shared h.inside hK (hkeys hsome) (hkeys hsome') ho
  exact Draft.shown_congr htext hd

/-- A path leads to the same place in both. -/
theorem follow (names : List String) {origin : Option String} (horigin : ∀ o ∈ origin, P o)
    (behind : List String) {members : Fields Draft} (hmembers : Draft.WithinMembers P members) :
    Making.follow m.shared names origin behind members =
        Making.follow m'.shared names origin behind members ∧
      ∀ o ∈ (Making.follow m.shared names origin behind members).origin, P o := by
  induction names generalizing origin behind members with
  | nil => exact ⟨rfl, horigin⟩
  | cons name names ih =>
    cases names with
    | nil => exact ⟨rfl, horigin⟩
    | cons next rest =>
      unfold Making.follow
      cases hget : members.get? name with
      | none => exact ⟨rfl, horigin⟩
      | some d =>
        have hd : d.Within P := Draft.withinMembers_iff.1 hmembers _ (Fields.mem_of_get? hget)
        cases d with
        | value v => exact ⟨rfl, horigin⟩
        | list items => exact ⟨rfl, horigin⟩
        | object inner => exact ih horigin _ hd
        | shared other =>
          have hinner : Draft.WithinMembers P ((m.shared.get? other).getD []) := by
            cases hother : m.shared.get? other with
            | none => trivial
            | some inner => exact h.inside other inner hd hother
          dsimp only
          rw [← h.shared other hd]
          exact ih (fun o ho => Option.mem_some.1 ho ▸ hd) _ hinner

/-- Writing keeps them alike. -/
theorem write {d : Draft} (hd : d.Within P) (names : List String) :
    Alike P (m.write names d) (m'.write names d) := by
  have hnone : ∀ o ∈ (none : Option String), P o := by simp
  obtain ⟨hplace, horigin⟩ := h.follow names hnone [] h.within
  unfold Making.write
  rw [← h.resource, ← hplace]
  extract_lets place
  cases hplace : place.origin with
  | none =>
    exact
      { resource := rfl
        shared := h.shared
        within := Draft.withinMembers_writeAt hd _ h.within
        inside := h.inside }
  | some origin =>
    have hP : P origin := horigin origin hplace
    have hold : Draft.WithinMembers P ((m.shared.get? origin).getD []) := by
      cases hget : m.shared.get? origin with
      | none => trivial
      | some members => exact h.inside origin members hP hget
    dsimp only
    rw [← h.shared origin hP]
    refine ⟨rfl, fun o ho => ?_, h.within, fun o members ho hget => ?_⟩
    · show (m.shared.put origin _).get? o = (m'.shared.put origin _).get? o
      rw [Fields.get?_put, Fields.get?_put, h.shared o ho]
    · replace hget : (m.shared.put origin _).get? o = some members := hget
      rw [Fields.get?_put] at hget
      split at hget
      · obtain rfl := Option.some.inj hget
        exact Draft.withinMembers_writeAt hd _ hold
      · exact h.inside o members ho hget

end Alike

end Making

end ScimBridge
