import Mathlib.Data.List.Nodup
import ScimBridge.Proofs.Resource.Written

/-!
# What a user resource shows

Where attributes stand apart, the values of mapped attributes are written without touching anything
else: each place of a resource shows what the backend has for it (`shows_ofBackend`), those of the
usual attributes as they are listed in a table (`usualValues`).
-/

namespace ScimBridge

open Resource

namespace User

variable {c : MappingConfig} {user : Fields Value}

/-! ## Places that stand apart -/

section

variable {values : Fields Value} {mappings : List Mapping}

theorem at?_writeGiven_of_apart {m : Mapping} {p : List String} (h : Apart m.place p) :
    at? p (writeGiven user values m) = at? p values := by
  unfold writeGiven
  split
  · rfl
  · exact at?_writeAt_of_apart _ h

theorem at?_writeGiven_self {m : Mapping} (h : Open m.place values) :
    at? m.place (writeGiven user values m) =
      (Value.given? user m.backendAttribute).or (at? m.place values) := by
  unfold writeGiven
  split
  · rename_i hnone
    rw [hnone, Option.none_or]
  · rename_i v hv
    rw [hv, Option.some_or]
    exact at?_writeAt_self v m.place_ne_nil h

theorem open_writeGiven {m : Mapping} {p : List String} (hp : Open p values) (h : Apart m.place p) :
    Open p (writeGiven user values m) := by
  unfold writeGiven
  split
  · exact hp
  · exact open_writeAt _ hp fun hprefix => absurd hprefix h.1

theorem at?_foldl_writeGiven_of_apart {p : List String} (h : ∀ m ∈ mappings, Apart m.place p) :
    at? p (mappings.foldl (writeGiven user) values) = at? p values :=
  List.foldlRecOn (motive := fun acc : Fields Value => at? p acc = at? p values)
    mappings (writeGiven user) rfl
    fun _ hacc m hm => (at?_writeGiven_of_apart (h m hm)).trans hacc

theorem name_foldl_writeGiven (h : ∀ m ∈ mappings, m.place ≠ ["name"])
    (hvalues : ∀ v, values.get? "name" = some v → ∃ parts, v = .object parts) :
    ∀ v, (mappings.foldl (writeGiven user) values).get? "name" = some v →
      ∃ parts, v = .object parts := by
  refine List.foldlRecOn
    (motive := fun acc : Fields Value => ∀ v, acc.get? "name" = some v → ∃ parts, v = .object parts)
    mappings (writeGiven user) hvalues fun acc hacc m hm v hv => ?_
  unfold writeGiven at hv
  split at hv
  · exact hacc v hv
  · exact object_writeAt _ (h m hm) hacc hv

/-- Where mapped attributes stand apart from each other, each shows its given value. -/
theorem at?_foldl_writeGiven (h : mappings.Pairwise fun m m' => Apart m.place m'.place)
    {m : Mapping} (hm : m ∈ mappings) (hopen : Open m.place values) :
    at? m.place (mappings.foldl (writeGiven user) values) =
      (Value.given? user m.backendAttribute).or (at? m.place values) := by
  induction mappings generalizing values with
  | nil => cases hm
  | cons first rest ih =>
    obtain ⟨hfirst, hrest⟩ := List.pairwise_cons.1 h
    rcases List.mem_cons.1 hm with rfl | hmem
    · exact (at?_foldl_writeGiven_of_apart fun m' hm' => (hfirst m' hm').symm).trans
        (at?_writeGiven_self hopen)
    · have hapart := hfirst m hmem
      rw [List.foldl_cons, ih hrest hmem (open_writeGiven hopen hapart),
        at?_writeGiven_of_apart hapart]

end

/-! ## What a resource shows -/

/-- What a user resource shows without a mapping, by its places. -/
def usualValues (baseUrl : String) (c : MappingConfig) (user : Fields Value) :
    List (List String × Option Value) :=
  [(["schemas"], some (schemasOf c user)),
   (["id"], some (Resource.identifier user)),
   (["meta"], some (metadataOf baseUrl user)),
   (["userName"], Value.given? user "userName"),
   (["displayName"], Value.given? user "displayName"),
   (["password"], none),
   (["active"], (user.get? "accountStatus").map fun v => .bool (isActive v))]
    ++ nameParts.map (fun p => (["name", p.2], Value.filled? user p.1))
    ++ contacts.map (fun p => ([p.1], (Value.filled? user p.2).map contactValue))
    ++ passedThrough.map fun name => ([name], Value.given? user name)

theorem usualValues_places (baseUrl : String) :
    (usualValues baseUrl c user).map Prod.fst = usualPlaces := rfl

/-- A resource shows at each place what the backend has for it. -/
structure Shows (baseUrl : String) (c : MappingConfig) (user resource : Fields Value) :
    Prop where
  usual : ∀ p ∈ usualValues baseUrl c user, at? p.1 resource = p.2
  mapped : ∀ m ∈ c.mappings, at? m.place resource = Value.given? user m.backendAttribute
  name : ∀ v, resource.get? "name" = some v → ∃ parts, v = .object parts

section

variable {values : Fields Value} (hbegun : Stands c user (begun c (view c user)) values)

include hbegun

theorem get?_values {name : String} {d? : Option Draft}
    (h : (name, d?) ∈ usualDrafts c (view c user)) :
    values.get? name = d?.bind (Draft.expand (begun c (view c user)).look?) := by
  rw [Draft.get?_expandMembers hbegun.expands, get?_begun h]

theorem active_values : values.get? "active" =
    (user.get? "accountStatus").map fun v => .bool (isActive v) := by
  have hdraft : ("active", ((view c user).get? "accountStatus").map
      fun v => .value (.bool (isActive v))) ∈ usualDrafts c (view c user) := by
    simp [usualDrafts]
  rw [get?_values hbegun hdraft, get?_view (mem_readNames_of_usual (by decide))]
  cases user.get? "accountStatus" <;> rfl

theorem at?_values_of_namePart {part : String × String} (hpart : part ∈ nameParts) :
    at? ["name", part.2] values = Value.filled? user part.1 := by
  have hopen : Open ["name", part.2] (begun c (view c user)).resource :=
    open_begun ((by decide : ∀ part ∈ nameParts, ∀ p ∈ usualPlaces,
      p <+: ["name", part.2] → p = ["name", part.2]) part hpart)
  rw [Draft.at?_expandMembers hopen hbegun.expands, at?_begun_of_namePart hpart]
  exact expand_filled hbegun.shared (mem_readNames_of_usual
    ((by decide : ∀ part ∈ nameParts, part.1 ∈ readNames .empty) part hpart))

/-- The resource begins with what it shows without a mapping, but for its metadata. -/
theorem at?_values {baseUrl : String} {p : List String × Option Value}
    (h : p ∈ usualValues baseUrl c user) (hmeta : p.1 ≠ ["meta"]) : at? p.1 values = p.2 := by
  have hread : ∀ name ∈ ["userName", "displayName"] ++ passedThrough, name ∈ readNames c :=
    fun name hname => mem_readNames_of_usual ((by decide :
      ∀ name ∈ ["userName", "displayName"] ++ passedThrough, name ∈ readNames .empty) name hname)
  simp only [usualValues, List.mem_append, List.mem_cons, List.not_mem_nil, or_false, or_assoc]
    at h
  rcases h with rfl | rfl | rfl | rfl | rfl | rfl | rfl | h | h | h
  · have hdraft : ("schemas", some (.value (schemasOf c (view c user)))) ∈
        usualDrafts c (view c user) := by simp [usualDrafts]
    refine (get?_values hbegun hdraft).trans ?_
    rw [schemasOf_view]
    rfl
  · have hdraft : ("id", some (identifierOf (view c user))) ∈ usualDrafts c (view c user) := by
      simp [usualDrafts]
    exact (get?_values hbegun hdraft).trans (expand_identifier hbegun.shared)
  · exact absurd rfl hmeta
  · exact (get?_values hbegun (by simp [usualDrafts, draftTable])).trans
      (expand_given hbegun.shared (hread _ (by decide)))
  · exact (get?_values hbegun (by simp [usualDrafts, draftTable])).trans
      (expand_given hbegun.shared (hread _ (by decide)))
  · refine (Draft.get?_expandMembers hbegun.expands "password").trans ?_
    rw [get?_begun_password]
    rfl
  · exact active_values hbegun
  · obtain ⟨part, hpart, rfl⟩ := List.mem_map.1 h
    exact at?_values_of_namePart hbegun hpart
  · obtain ⟨contact, hcontact, rfl⟩ := List.mem_map.1 h
    exact (get?_values hbegun (mem_usualDrafts_of_contact hcontact)).trans
      (expand_contact hbegun.shared (mem_readNames_of_usual
        ((by decide : ∀ p ∈ contacts, p.2 ∈ readNames .empty) contact hcontact)))
  · obtain ⟨name, hname, rfl⟩ := List.mem_map.1 h
    exact (get?_values hbegun (mem_usualDrafts_of_passed hname)).trans
      (expand_given hbegun.shared (hread _ (List.mem_append_right _ hname)))

theorem name_values {v : Value} (hv : values.get? "name" = some v) : ∃ parts, v = .object parts := by
  have hdraft : ("name", if (nameDrafts (view c user)).isEmpty then none
      else some (.object (nameDrafts (view c user)))) ∈ usualDrafts c (view c user) := by
    simp [usualDrafts]
  rw [get?_values hbegun hdraft] at hv
  obtain ⟨d, hd, hexpand⟩ := Option.bind_eq_some_iff.1 hv
  split at hd
  · cases hd
  · cases hd
    obtain ⟨parts, -, rfl⟩ := Option.map_eq_some_iff.1 hexpand
    exact ⟨parts, rfl⟩

theorem at?_values_of_mapped (h : c.Separate) {m : Mapping} (hm : m ∈ c.mappings) :
    at? m.place values = none := by
  rw [Draft.at?_expandMembers (hbegun.opened m hm) hbegun.expands,
    at?_begun_of_apart fun p hp => h.apart_usual hm hp, Option.bind_none]

end

/-- Where attributes stand apart, there is a resource that shows each of them. -/
theorem shows_ofBackend (h : c.Separate) (baseUrl : String) (user : Fields Value) :
    ∃ resource, ofBackend baseUrl c user = .ok resource ∧ Shows baseUrl c user resource := by
  obtain ⟨values, hbegun, hresource⟩ := ofBackend_eq h.unentered baseUrl user
  refine ⟨_, hresource, ?_, ?_, ?_⟩
  · intro p hp
    have hplace : p.1 ∈ usualPlaces := usualValues_places (c := c) baseUrl ▸ List.mem_map_of_mem hp
    by_cases hmeta : p.1 = ["meta"]
    · have hnodup : ((usualValues baseUrl c user).map Prod.fst).Nodup :=
        (by decide : usualPlaces.Nodup)
      have hmem : (["meta"], some (metadataOf baseUrl user)) ∈ usualValues baseUrl c user := by
        simp [usualValues]
      rw [List.inj_on_of_nodup_map hnodup hp hmem hmeta]
      exact Fields.get?_put_self _ _ _
    · have hapart : Apart ["meta"] p.1 := (by decide : ∀ p ∈ usualPlaces, p ≠ ["meta"] →
        Apart ["meta"] p) p.1 hplace hmeta
      refine (at?_writeAt_of_apart _ hapart).trans ?_
      rw [at?_foldl_writeGiven_of_apart fun m hm => h.apart_usual hm hplace]
      exact at?_values hbegun hp hmeta
  · intro m hm
    have hmeta : Apart ["meta"] m.place := (h.apart_usual hm (by decide)).symm
    refine (at?_writeAt_of_apart _ hmeta).trans ?_
    rw [at?_foldl_writeGiven h.pairwise_apart hm
      (Draft.open_expandMembers (hbegun.opened m hm) hbegun.expands),
      at?_values_of_mapped hbegun h hm, Option.or_none]
  · rw [Fields.get?_put_of_ne _ _ (by decide)]
    refine name_foldl_writeGiven (fun m hm hname => ?_) fun v => name_values hbegun
    have hpart : ["name", "givenName"] ∈ usualPlaces := by decide
    exact (h.apart_usual hm hpart).1 (hname ▸ by decide)

/-- What a resource shows without a mapping depends on the usual attributes alone, but for the
schemas. -/
theorem usualValues_congr {other : Fields Value}
    (h : ∀ name ∈ readNames .empty, other.get? name = user.get? name) (baseUrl : String) :
    (usualValues baseUrl c other).tail = (usualValues baseUrl c user).tail := by
  have hgiven : ∀ name ∈ readNames .empty, Value.given? other name = Value.given? user name :=
    fun name hname => by rw [Value.given?, h name hname, Value.given?]
  have hfilled : ∀ name ∈ readNames .empty, Value.filled? other name = Value.filled? user name :=
    fun name hname => by rw [Value.filled?, h name hname, Value.filled?]
  simp (disch := decide) only [usualValues, List.cons_append, List.tail_cons, nameParts, contacts,
    passedThrough, List.map_cons, List.map_nil, metadataOf, stampsOf, Resource.identifier, h,
    hgiven, hfilled]

end User

end ScimBridge
