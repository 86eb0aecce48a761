import Mathlib.Data.List.Pairwise
import ScimBridge.Proofs.Resource.Places
import ScimBridge.Proofs.Text.Cut
import ScimBridge.Resource.User

/-!
# Where mapped attributes stand

A mapped attribute stands at its path, inside the object of the enterprise extension if it belongs
to it. The name of that object has a dot in it, which no name of a path has, so the two locations
never meet (`apart_of_enterprise`).

A configuration is unentered if no path leads into the place of another attribute, and separate if
all attributes stand apart from each other and from those that a user has without a mapping.
-/

namespace ScimBridge

open Resource

namespace Resource

theorem segments_ne_nil (path : String) : segments path ≠ [] :=
  fun h => cutAt_ne_nil '.' path.toList (List.map_eq_nil_iff.1 h)

theorem dot_not_mem_of_mem_segments {path name : String} (h : name ∈ segments path) :
    '.' ∉ name.toList := by
  obtain ⟨piece, hpiece, rfl⟩ := List.mem_map.1 h
  rw [String.toList_ofList]
  exact not_mem_of_mem_cutAt hpiece

end Resource

namespace Mapping

variable {m m' : Mapping}

/-- Where the attribute stands in a user resource. -/
def place (m : Mapping) : List String :=
  if m.isEnterprise then Urn.enterpriseUser :: Resource.segments m.path
  else Resource.segments m.path

theorem place_of_enterprise (h : m.isEnterprise = true) :
    m.place = Urn.enterpriseUser :: Resource.segments m.path := if_pos h

theorem place_of_core (h : m.isEnterprise = false) : m.place = Resource.segments m.path :=
  if_neg (by simp [h])

theorem place_ne_nil (m : Mapping) : m.place ≠ [] := by
  cases h : m.isEnterprise with
  | true => simp [place_of_enterprise h]
  | false => simpa [place_of_core h] using segments_ne_nil m.path

/-- The first name of the path. -/
def root (m : Mapping) : String := (Resource.segments m.path).head (segments_ne_nil m.path)

/-- How many names the path has. -/
def depth (m : Mapping) : Nat := (Resource.segments m.path).length

theorem exists_segments (m : Mapping) : ∃ rest, Resource.segments m.path = m.root :: rest :=
  ⟨(Resource.segments m.path).tail, (List.cons_head_tail _).symm⟩

theorem exists_place_of_enterprise (h : m.isEnterprise = true) :
    ∃ rest, m.place = Urn.enterpriseUser :: m.root :: rest := by
  obtain ⟨rest, hrest⟩ := m.exists_segments
  exact ⟨rest, by rw [place_of_enterprise h, hrest]⟩

theorem exists_place_of_core (h : m.isEnterprise = false) : ∃ rest, m.place = m.root :: rest := by
  obtain ⟨rest, hrest⟩ := m.exists_segments
  exact ⟨rest, by rw [place_of_core h, hrest]⟩

theorem dot_not_mem_root (m : Mapping) : '.' ∉ m.root.toList :=
  dot_not_mem_of_mem_segments (List.head_mem _)

theorem root_ne_enterpriseUser (m : Mapping) : m.root ≠ Urn.enterpriseUser := by
  intro h
  exact m.dot_not_mem_root (h ▸ by decide)

/-- A path is nested iff it has more than one name. -/
theorem isNested_iff : m.isNested = true ↔ 1 < m.depth := by
  rw [depth, Resource.segments, cutText, List.length_map, length_cutAt, isNested,
    List.contains_iff_mem, ← List.count_pos_iff]
  omega

/-- A path that is not nested is its one name. -/
theorem segments_of_not_isNested (h : m.isNested = false) : Resource.segments m.path = [m.path] := by
  have hdot : '.' ∉ m.path.toList := by simpa [isNested] using h
  rw [Resource.segments, cutText, cutAt_of_not_mem hdot, List.map_singleton, String.ofList_toList]

theorem root_of_not_isNested (h : m.isNested = false) : m.root = m.path := by
  unfold root
  simp only [segments_of_not_isNested h, List.head_cons]

/-- The attribute around another one stands at the top iff the path has two names; then it is the
first of them. -/
theorem parentPath?_top_iff {name : String} :
    m.parentPath? = some name ∧ '.' ∉ name.toList ↔ m.depth = 2 ∧ m.root = name := by
  obtain ⟨rest, hrest⟩ := m.exists_segments
  obtain ⟨first, pieces, hcut, hfirst, hpieces⟩ := List.map_eq_cons_iff.1 hrest
  have hdepth : m.depth = pieces.length + 1 := by
    rw [depth, hrest, ← hpieces, List.length_cons, List.length_map]
  have hnested := m.isNested_iff
  unfold parentPath?
  rw [hcut, ← hfirst]
  rcases pieces with _ | ⟨second, _ | ⟨third, pieces⟩⟩
  · rw [if_neg (by rw [hnested, hdepth]; simp)]
    simp [hdepth]
  · rw [if_pos (by rw [hnested, hdepth]; simp)]
    have hdot : '.' ∉ (String.ofList first).toList := by
      rw [String.toList_ofList]
      exact not_mem_of_mem_cutAt (hcut ▸ List.mem_cons_self)
    show some (String.ofList first) = some name ∧ _ ↔ _
    rw [Option.some.injEq]
    exact ⟨fun h => ⟨hdepth, h.1⟩, fun h => ⟨h.2, h.2 ▸ hdot⟩⟩
  · -- between the first two names stands a dot
    rw [if_pos (by rw [hnested, hdepth]; simp)]
    refine iff_of_false (fun h => h.2 ?_) fun h => by simp [hdepth] at h
    rw [← Option.some.inj h.1, String.toList_ofList, List.dropLast_cons_cons,
      List.dropLast_cons_cons, joinWith]
    simp

/-- No name of a path is that of the extension. -/
theorem apart_enterpriseUser (path : String) (rest : List String) :
    Apart (Urn.enterpriseUser :: rest) (Resource.segments path) := by
  obtain ⟨name, names, h⟩ := List.exists_cons_of_ne_nil (segments_ne_nil path)
  rw [h]
  refine apart_of_ne ?_ _ _
  rintro rfl
  exact dot_not_mem_of_mem_segments (h ▸ List.mem_cons_self) (by decide)

/-- The attributes of the extension stand apart from all others. -/
theorem apart_of_enterprise (h : m.isEnterprise = true) (h' : m'.isEnterprise = false) :
    Apart m.place m'.place := by
  rw [place_of_enterprise h, place_of_core h']
  exact apart_enterpriseUser _ _

/-- Mappings whose places are pairwise apart are one or stand apart. -/
theorem eq_or_apart_of_pairwise {place : Mapping → List String} {mappings : List Mapping}
    (h : mappings.Pairwise fun m m' => Apart (place m) (place m')) (hm : m ∈ mappings)
    (hm' : m' ∈ mappings) : m = m' ∨ Apart (place m) (place m') := by
  by_cases heq : m = m'
  · exact .inl heq
  · have : Std.Symm fun m m' : Mapping => Apart (place m) (place m') := ⟨fun _ _ => Apart.symm⟩
    exact .inr (h.forall hm hm' heq)

theorem toList_qualifiedPath (h : m.isEnterprise = true) :
    m.qualifiedPath.toList = m.schema.toList ++ ':' :: m.path.toList := by
  rw [qualifiedPath, if_pos h, String.toList_append, String.toList_append]
  simp

theorem qualifiedPath_of_core (h : m.isEnterprise = false) : m.qualifiedPath = m.path :=
  if_neg (by simp [h])

/-- A path without a colon is no path behind the name of an extension. -/
theorem path_eq_of_qualifiedPath {name : String} (hcolon : ':' ∉ name.toList)
    (h : m.qualifiedPath = name) : m.path = name := by
  unfold qualifiedPath at h
  split at h
  · exact absurd (h ▸ by simp) hcolon
  · exact h

end Mapping

namespace User

/-- The places of a user resource that are filled without a mapping. -/
def usualPlaces : List (List String) :=
  [["schemas"], ["id"], ["meta"], ["userName"], ["displayName"], ["password"], ["active"]]
    ++ nameParts.map (fun p => ["name", p.2]) ++ contacts.map (fun p => [p.1])
    ++ passedThrough.map fun name => [name]

theorem mem_usualPlaces_of_passed {name : String} (h : name ∈ passedThrough) :
    [name] ∈ usualPlaces :=
  List.mem_append_right _ (List.mem_map_of_mem h)

/-- The places that are filled without a mapping stand apart from the extension. -/
theorem apart_of_mem_usualPlaces {p : List String} (h : p ∈ usualPlaces) (rest : List String) :
    Apart (Urn.enterpriseUser :: rest) p := by
  have hhead : ∀ p ∈ usualPlaces, p.head? ≠ some Urn.enterpriseUser ∧ p ≠ [] := by decide
  obtain ⟨hne, hnil⟩ := hhead p h
  obtain ⟨name, names, rfl⟩ := List.exists_cons_of_ne_nil hnil
  exact apart_of_ne (fun heq => hne (congrArg some heq.symm)) _ _

end User

namespace MappingConfig

variable {c : MappingConfig}

/-- No path leads into the place of another attribute. -/
structure Unentered (c : MappingConfig) : Prop where
  mapped : ∀ m ∈ c.mappings, ∀ m' ∈ c.mappings, m.place <+: m'.place → m.place = m'.place
  usual : ∀ p ∈ User.usualPlaces, ∀ m ∈ c.mappings, p <+: m.place → p = m.place

/-- All attributes of a location stand apart from each other, and the core ones from those that a
user has without a mapping. -/
structure Separate (c : MappingConfig) : Prop where
  apart : c.mappings.Pairwise fun m m' => m.isEnterprise = m'.isEnterprise →
    Apart (Resource.segments m.path) (Resource.segments m'.path)
  usual : ∀ m ∈ c.mappings, m.isEnterprise = false → ∀ p ∈ User.usualPlaces,
    Apart (Resource.segments m.path) p
  passed : ∀ m ∈ c.mappings, m.isEnterprise = true → m.path ∉ User.passedThrough

/-- In a separate configuration, the places of attributes stand apart. -/
theorem Separate.pairwise_apart (h : c.Separate) :
    c.mappings.Pairwise fun m m' => Apart m.place m'.place := by
  refine h.apart.imp fun {m m'} hapart => ?_
  cases hm : m.isEnterprise with
  | true =>
    cases hm' : m'.isEnterprise with
    | true =>
      rw [Mapping.place_of_enterprise hm, Mapping.place_of_enterprise hm']
      exact (hapart (hm.trans hm'.symm)).cons _
    | false => exact Mapping.apart_of_enterprise hm hm'
  | false =>
    cases hm' : m'.isEnterprise with
    | true => exact (Mapping.apart_of_enterprise hm' hm).symm
    | false =>
      rw [Mapping.place_of_core hm, Mapping.place_of_core hm']
      exact hapart (hm.trans hm'.symm)

/-- Mapped attributes stand apart from those that a user has without a mapping. -/
theorem Separate.apart_usual (h : c.Separate) {m : Mapping} (hm : m ∈ c.mappings)
    {p : List String} (hp : p ∈ User.usualPlaces) : Apart m.place p := by
  cases he : m.isEnterprise with
  | true =>
    rw [Mapping.place_of_enterprise he]
    exact User.apart_of_mem_usualPlaces hp _
  | false =>
    rw [Mapping.place_of_core he]
    exact h.usual m hm he p hp

/-- Two mappings are one, or their attributes stand apart. -/
theorem Separate.eq_or_apart (h : c.Separate) {m m' : Mapping} (hm : m ∈ c.mappings)
    (hm' : m' ∈ c.mappings) : m = m' ∨ Apart m.place m'.place :=
  Mapping.eq_or_apart_of_pairwise h.pairwise_apart hm hm'

/-- No mapping answers for an attribute that is passed through. -/
theorem Separate.byPath?_passed (h : c.Separate) {name : String}
    (hname : name ∈ User.passedThrough) : c.byPath? name = none := by
  refine List.find?_eq_none.2 fun m hm => ?_
  have hplain : ∀ name ∈ User.passedThrough,
      ':' ∉ name.toList ∧ Resource.segments name = [name] := by decide
  obtain ⟨hcolon, hsegments⟩ := hplain name hname
  have hpath : name ≠ m.path := by
    rintro rfl
    cases he : m.isEnterprise with
    | true => exact h.passed m hm he hname
    | false =>
      have hapart := h.usual m hm he _ (User.mem_usualPlaces_of_passed hname)
      exact hapart.1 (hsegments ▸ List.prefix_rfl)
  have hqualified : name ≠ m.qualifiedPath := fun heq =>
    hpath (Mapping.path_eq_of_qualifiedPath hcolon heq.symm).symm
  simp [hpath, hqualified]

theorem Separate.unentered (h : c.Separate) : c.Unentered where
  mapped m hm m' hm' hprefix := by
    rcases h.eq_or_apart hm hm' with rfl | hapart
    · rfl
    · exact absurd hprefix hapart.1
  usual p hp m hm hprefix := absurd hprefix (h.apart_usual hm hp).2

end MappingConfig

end ScimBridge
