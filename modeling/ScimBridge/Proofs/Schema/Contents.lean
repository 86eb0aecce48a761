import ScimBridge.Proofs.Schema.Declared

/-!
# What compiled schemas contain

From every property map and every list of mappings a schema is made whose attributes are known one
by one (`compile_lists_exactly`): the core attributes, the published properties in the order of the
map, and the mapped attributes at the top whose names are still free, each where its name occurs
first. Mappings below the top add sub-attributes to complex attributes and change nothing else.

1. Of several attributes of one name the first one is taken in (`newcomers`).
2. Adding the nested mappings one after the other is adding to each attribute those that name it as
   their parent (`foldl_addNested`), so that an attribute is extended independently of the others.
-/

namespace ScimBridge

namespace Schema

variable {taken : List String} {attributes : List Attribute} {a b : Attribute} {m : Mapping}

/-! ## New names -/

/-- The attributes whose names are not taken, the first one of each name. -/
def newcomers (taken : List String) (attributes : List Attribute) : List Attribute :=
  (attributes.filter (·.name ∉ taken)).eraseDupsBy fun a b => a.name == b.name

theorem newcomers_nil (taken : List String) : newcomers taken [] = [] := rfl

theorem newcomers_cons_of_taken (h : a.name ∈ taken) :
    newcomers taken (a :: attributes) = newcomers taken attributes := by
  rw [newcomers, newcomers, List.filter_cons_of_neg (by simpa using h)]

theorem newcomers_cons_of_free (h : a.name ∉ taken) :
    newcomers taken (a :: attributes) =
      a :: newcomers (taken ++ [a.name]) attributes := by
  rw [newcomers, newcomers, List.filter_cons_of_pos (by simpa using h), List.eraseDupsBy_cons,
    List.filter_filter]
  refine congrArg (fun as => a :: List.eraseDupsBy _ as) (List.filter_congr fun b _ => ?_)
  by_cases hb : b.name = a.name <;> simp [hb]

/-- The names that are new, each in the place of its first occurrence. -/
theorem namesOf_newcomers (taken : List String) (attributes : List Attribute) :
    namesOf (newcomers taken attributes) =
      ((namesOf attributes).filter (· ∉ taken)).eraseDups := by
  induction attributes generalizing taken with
  | nil => rfl
  | cons a rest ih =>
    have hnames : namesOf (a :: rest) = a.name :: namesOf rest := rfl
    by_cases h : a.name ∈ taken
    · rw [newcomers_cons_of_taken h, ih, hnames, List.filter_cons_of_neg (by simpa using h)]
    · rw [newcomers_cons_of_free h, hnames, List.filter_cons_of_pos (by simpa using h),
        List.eraseDups_cons, List.filter_filter]
      show a.name :: namesOf (newcomers (taken ++ [a.name]) rest) = _
      rw [ih]
      refine congrArg (fun names => a.name :: names.eraseDups) (List.filter_congr fun n _ => ?_)
      by_cases hn : n = a.name <;> simp [hn]

theorem not_mem_of_mem_newcomers {name : String}
    (h : name ∈ namesOf (newcomers taken attributes)) : name ∉ taken := by
  rw [namesOf_newcomers, List.mem_eraseDups, List.mem_filter] at h
  simpa using h.2

theorem nodup_newcomers (taken : List String) (attributes : List Attribute) :
    (namesOf (newcomers taken attributes)).Nodup := by
  induction attributes generalizing taken with
  | nil => exact List.nodup_nil
  | cons a rest ih =>
    by_cases h : a.name ∈ taken
    · rw [newcomers_cons_of_taken h]
      exact ih taken
    · rw [newcomers_cons_of_free h]
      refine List.nodup_cons.2 ⟨fun hmem => ?_, ih _⟩
      exact not_mem_of_mem_newcomers hmem (List.mem_append_right _ (List.mem_singleton_self _))

theorem newcomers_subset (taken : List String) (attributes : List Attribute) :
    newcomers taken attributes ⊆ attributes := by
  induction attributes generalizing taken with
  | nil => exact List.Subset.refl _
  | cons a rest ih =>
    by_cases h : a.name ∈ taken
    · rw [newcomers_cons_of_taken h]
      exact List.subset_cons_of_subset _ (ih taken)
    · rw [newcomers_cons_of_free h]
      exact List.cons_subset_cons _ (ih _)

theorem namesOf_append (front behind : List Attribute) :
    namesOf (front ++ behind) = namesOf front ++ namesOf behind :=
  List.map_append

/-- With the names of the first ones taken, the others come in behind them. -/
theorem newcomers_append (taken : List String) (front behind : List Attribute) :
    newcomers taken (front ++ behind) =
      newcomers taken front ++ newcomers (taken ++ namesOf (newcomers taken front)) behind := by
  induction front generalizing taken with
  | nil => simp [newcomers_nil, namesOf]
  | cons a front ih =>
    by_cases h : a.name ∈ taken
    · rw [List.cons_append, newcomers_cons_of_taken h, newcomers_cons_of_taken h, ih]
    · rw [List.cons_append, newcomers_cons_of_free h, newcomers_cons_of_free h, ih,
        List.cons_append, List.append_assoc]
      rfl

/-! ## Mappings at the top -/

/-- Mapped attributes at the top are added in order where their names are free. -/
theorem foldl_addTop {ms : List Mapping} (h : ∀ m ∈ ms, m.isNested = false)
    (attributes : List Attribute) :
    ms.foldl addTop attributes =
      attributes ++ newcomers (namesOf attributes) (ms.map Mapping.definition) := by
  induction ms generalizing attributes with
  | nil => rw [List.foldl_nil, List.map_nil, newcomers_nil, List.append_nil]
  | cons m rest ih =>
    have hname : m.definition.name = m.path :=
      Mapping.leafName_of_not_isNested (h m List.mem_cons_self)
    have hrest := fun as => ih (fun m' hm' => h m' (List.mem_cons_of_mem _ hm')) as
    rw [List.foldl_cons, List.map_cons, addTop]
    split
    · rename_i htaken
      rw [named_iff, ← hname] at htaken
      rw [hrest, newcomers_cons_of_taken htaken]
    · rename_i hfree
      rw [named_iff, ← hname] at hfree
      have hnames : namesOf (attributes ++ [m.definition]) =
          namesOf attributes ++ [m.definition.name] := namesOf_append _ _
      rw [hrest, hnames, newcomers_cons_of_free hfree, List.append_assoc, List.singleton_append]

/-! ## Nested mappings -/

/-- The definitions of the mappings that name an attribute as their parent. -/
def childrenOf (ms : List Mapping) (a : Attribute) : List Attribute :=
  (ms.filter fun m => m.parentPath? == some a.name).map Mapping.definition

/-- An attribute with the sub-attributes that mappings add to it. -/
def extended (ms : List Mapping) (a : Attribute) : Attribute :=
  if a.type = .complex then
    { a with
      subAttributes :=
        a.subAttributes ++ newcomers (namesOf a.subAttributes) (childrenOf ms a) }
  else a

theorem extended_nil (a : Attribute) : extended [] a = a := by
  unfold extended
  split
  · cases a
    simp [childrenOf, newcomers_nil]
  · rfl

/-- The change that one nested mapping makes to an attribute. -/
def extendedBy (m : Mapping) (a : Attribute) : Attribute :=
  if m.parentPath? = some a.name then extendParent m a else a

theorem name_extendedBy (m : Mapping) (a : Attribute) : (extendedBy m a).name = a.name := by
  unfold extendedBy
  split
  · exact name_extendParent m a
  · rfl

theorem sub?_isNone_iff {name : String} :
    (a.sub? name).isNone = true ↔ name ∉ namesOf a.subAttributes := by
  simp [Attribute.sub?, namesOf]

theorem childrenOf_cons_of_eq {ms : List Mapping} (h : m.parentPath? = some a.name) :
    childrenOf (m :: ms) a = m.definition :: childrenOf ms a := by
  rw [childrenOf, List.filter_cons_of_pos (by simp [h]), List.map_cons]
  rfl

theorem childrenOf_cons_of_ne {ms : List Mapping} (h : m.parentPath? ≠ some a.name) :
    childrenOf (m :: ms) a = childrenOf ms a := by
  rw [childrenOf, List.filter_cons_of_neg (by simp [h])]
  rfl

/-- Extending by one mapping and then by the others is extending by all. -/
theorem extended_cons (ms : List Mapping) :
    extended ms (extendedBy m a) = extended (m :: ms) a := by
  unfold extendedBy
  by_cases hparent : m.parentPath? = some a.name
  · rw [if_pos hparent]
    unfold extendParent
    by_cases hcomplex : a.type = .complex
    · by_cases hfree : (a.sub? m.leafName).isNone = true
      · -- the sub-attribute is added, and its name is taken for the mappings behind it
        rw [if_pos ⟨hcomplex, hfree⟩]
        have hnew : m.definition.name ∉ namesOf a.subAttributes := sub?_isNone_iff.1 hfree
        simp only [extended, hcomplex, if_true, childrenOf_cons_of_eq hparent,
          newcomers_cons_of_free hnew, namesOf_append, List.append_assoc]
        rfl
      · rw [if_neg fun h => hfree h.2]
        have htaken : m.definition.name ∈ namesOf a.subAttributes :=
          not_not.1 (mt sub?_isNone_iff.2 hfree)
        simp only [extended, hcomplex, if_true, childrenOf_cons_of_eq hparent,
          newcomers_cons_of_taken htaken]
    · rw [if_neg fun h => hcomplex h.1]
      simp only [extended, hcomplex, if_false]
  · rw [if_neg hparent]
    simp only [extended, childrenOf_cons_of_ne hparent]

/-- Where no name occurs twice, changing the attribute of a name is changing every one. -/
theorem modifyNamed_eq_map {name : String} {f : Attribute → Attribute}
    (h : (namesOf attributes).Nodup) :
    modifyNamed name f attributes =
      attributes.map fun a => if a.name = name then f a else a := by
  induction attributes with
  | nil => rfl
  | cons a rest ih =>
    obtain ⟨ha, hrest⟩ := List.nodup_cons.1 h
    rw [modifyNamed, List.map_cons]
    split
    · rename_i hname
      have hsame : rest.map (fun b => if b.name = name then f b else b) = rest.map id := by
        refine List.map_congr_left fun b hb => if_neg fun hb' => ha ?_
        exact List.mem_map.2 ⟨b, hb, hb'.trans hname.symm⟩
      rw [hsame, List.map_id]
    · rw [ih hrest]

/-- A parent that is made up, before it has sub-attributes. -/
def standIn (name : String) : Attribute where
  name := name
  type := .complex
  description := .string ("Complex attribute for mapped " ++ name ++ " sub-attributes")

/-- The parents that may be made up for nested mappings: those at the top. -/
def standIns (makeParents : Bool) (ms : List Mapping) : List Attribute :=
  if makeParents then ((ms.filterMap Mapping.parentPath?).filter ('.' ∉ ·.toList)).map standIn
  else []

theorem standIns_false (ms : List Mapping) : standIns false ms = [] := rfl

theorem standIns_cons (makeParents : Bool) (m : Mapping) (ms : List Mapping) :
    standIns makeParents (m :: ms) = standIns makeParents [m] ++ standIns makeParents ms := by
  cases makeParents with
  | false => rfl
  | true =>
    cases hparent : m.parentPath? with
    | none => simp [standIns, hparent]
    | some parent => by_cases hdot : '.' ∈ parent.toList <;> simp [standIns, hparent, hdot]

theorem mem_standIns {makeParents : Bool} {ms : List Mapping} :
    a ∈ standIns makeParents ms ↔ makeParents = true ∧
      ∃ m ∈ ms, m.parentPath? = some a.name ∧ '.' ∉ a.name.toList ∧ a = standIn a.name := by
  cases makeParents with
  | false => simp [standIns]
  | true =>
    simp only [standIns, if_true, List.mem_map, List.mem_filter, List.mem_filterMap,
      decide_eq_true_eq, true_and]
    constructor
    · rintro ⟨name, ⟨⟨m, hm, hparent⟩, hdot⟩, rfl⟩
      exact ⟨m, hm, hparent, hdot, rfl⟩
    · rintro ⟨m, hm, hparent, hdot, ha⟩
      exact ⟨a.name, ⟨⟨m, hm, hparent⟩, hdot⟩, ha.symm⟩

theorem extendedBy_of_ne (h : m.parentPath? ≠ some a.name) : extendedBy m a = a := if_neg h

/-- A nested mapping changes each attribute on its own, and the parent that is made up for it. -/
theorem addNested_eq_map (makeParents : Bool) (h : (namesOf attributes).Nodup)
    (hm : m.isNested = true) :
    addNested makeParents attributes m =
      (attributes ++ newcomers (namesOf attributes) (standIns makeParents [m])).map
        (extendedBy m) := by
  obtain ⟨parent, hparent⟩ : ∃ parent, m.parentPath? = some parent :=
    ⟨_, by rw [Mapping.parentPath?, if_pos hm]⟩
  simp only [addNested, hparent]
  by_cases hnamed : named parent attributes = true
  · have hnone : newcomers (namesOf attributes) (standIns makeParents [m]) = [] := by
      refine List.eq_nil_iff_forall_not_mem.2 fun a ha => ?_
      obtain ⟨-, m', hm', hparent', -⟩ := mem_standIns.1 (newcomers_subset _ _ ha)
      rw [List.mem_singleton.1 hm', hparent] at hparent'
      refine not_mem_of_mem_newcomers (List.mem_map_of_mem ha) ?_
      rw [← Option.some.inj hparent']
      exact named_iff.1 hnamed
    rw [if_pos hnamed, modifyNamed_eq_map h, hnone, List.append_nil]
    refine List.map_congr_left fun a _ => ?_
    simp only [extendedBy, hparent, Option.some.injEq, eq_comm]
  · have hsame : attributes.map (extendedBy m) = attributes := by
      refine (List.map_congr_left fun a ha => ?_).trans (List.map_id _)
      refine extendedBy_of_ne fun hname => hnamed (named_iff.2 ?_)
      rw [Option.some.inj (hparent.symm.trans hname)]
      exact List.mem_map_of_mem ha
    rw [if_neg hnamed, List.map_append, hsame]
    rw [named_iff] at hnamed
    by_cases hmade : (makeParents && !parent.toList.contains '.') = true
    · rw [if_pos hmade]
      obtain ⟨rfl, hdot⟩ := Bool.and_eq_true_iff.1 hmade
      have hdot : '.' ∉ parent.toList := by simpa using hdot
      have hstand : standIns true [m] = [standIn parent] := by simp [standIns, hparent, hdot]
      have hmadeUp : extendedBy m (standIn parent) = madeUpParent parent m := if_pos hparent
      rw [hstand, newcomers_cons_of_free hnamed, newcomers_nil, List.map_singleton, hmadeUp]
    · rw [if_neg hmade]
      have hstand : standIns makeParents [m] = [] := by
        refine List.eq_nil_iff_forall_not_mem.2 fun a ha => hmade ?_
        obtain ⟨hmake, m', hm', hparent', hdot, -⟩ := mem_standIns.1 ha
        rw [List.mem_singleton.1 hm', hparent] at hparent'
        rw [Option.some.inj hparent', hmake]
        simpa using hdot
      rw [hstand, newcomers_nil, List.map_nil, List.append_nil]

/-- Adding nested mappings one after the other is adding to each attribute, and to each parent that
is made up, those that name it as their parent. -/
theorem foldl_addNested (makeParents : Bool) {ms : List Mapping}
    (hms : ∀ m ∈ ms, m.isNested = true) (h : (namesOf attributes).Nodup) :
    ms.foldl (addNested makeParents) attributes =
      (attributes ++ newcomers (namesOf attributes) (standIns makeParents ms)).map
        (extended ms) := by
  induction ms generalizing attributes with
  | nil =>
    have hnone : standIns makeParents [] = [] := by cases makeParents <;> rfl
    rw [List.foldl_nil, hnone, newcomers_nil, List.append_nil]
    exact (List.map_id'' extended_nil attributes).symm
  | cons m rest ih =>
    have hmap := addNested_eq_map makeParents h (hms m List.mem_cons_self)
    have hnames : namesOf (addNested makeParents attributes m) = namesOf attributes ++
        namesOf (newcomers (namesOf attributes) (standIns makeParents [m])) := by
      rw [hmap, ← namesOf_append, namesOf, List.map_map]
      exact List.map_congr_left fun a _ => name_extendedBy m a
    have hnew : (newcomers (namesOf (addNested makeParents attributes m))
        (standIns makeParents rest)).map (extendedBy m) =
          newcomers (namesOf (addNested makeParents attributes m)) (standIns makeParents rest) := by
      refine (List.map_congr_left fun a ha => ?_).trans (List.map_id _)
      -- the parent of the mapping is there, or it is made up for the mapping
      refine extendedBy_of_ne fun hparent => not_mem_of_mem_newcomers (List.mem_map_of_mem ha) ?_
      obtain ⟨hmake, -, -, -, hdot, -⟩ := mem_standIns.1 (newcomers_subset _ _ ha)
      exact mem_namesOf_addNested.2 (.inr ⟨hmake, Mapping.parentPath?_top_iff.1 ⟨hparent, hdot⟩⟩)
    rw [List.foldl_cons, ih (fun m' hm' => hms m' (List.mem_cons_of_mem _ hm'))
      (nodup_addNested makeParents m h), standIns_cons, newcomers_append, ← hnames,
      ← List.append_assoc]
    generalize newcomers (namesOf (addNested makeParents attributes m)) _ = new at hnew ⊢
    conv_lhs => rw [hmap, ← hnew, ← List.map_append, List.map_map]
    exact List.map_congr_left fun a _ => extended_cons rest

theorem nodup_append_newcomers (h : (namesOf attributes).Nodup) (others : List Attribute) :
    (namesOf (attributes ++ newcomers (namesOf attributes) others)).Nodup := by
  rw [namesOf_append]
  refine List.nodup_append.2 ⟨h, nodup_newcomers _ _, fun n hn n' hn' heq => ?_⟩
  exact not_mem_of_mem_newcomers hn' (heq ▸ hn)

/-- The definitions of the mappings at the top. -/
def topsOf (ms : List Mapping) : List Attribute :=
  (ms.filter fun m => !m.isNested).map Mapping.definition

/-- Mapped attributes are added at the top where their names are free, and below it to each attribute
that is their parent, with the parents that are made up. -/
theorem addMappings_eq (makeParents : Bool) (ms : List Mapping) (h : (namesOf attributes).Nodup) :
    let tops := attributes ++ newcomers (namesOf attributes) (topsOf ms)
    let nested := ms.filter Mapping.isNested
    addMappings makeParents attributes ms =
      (tops ++ newcomers (namesOf tops) (standIns makeParents nested)).map (extended nested) := by
  have htop : ∀ m ∈ ms.filter (fun m => !m.isNested), m.isNested = false := by
    intro m hm
    simpa using (List.mem_filter.1 hm).2
  have hnested : ∀ m ∈ ms.filter Mapping.isNested, m.isNested = true := by
    intro m hm
    exact (List.mem_filter.1 hm).2
  simp only [addMappings]
  rw [foldl_addTop htop, foldl_addNested makeParents hnested (nodup_append_newcomers h _), topsOf]

/-! ## Enriched attributes -/

/-- An attribute that has got sub-attributes from mappings, and is the same otherwise. Its own
sub-attributes come first; the others have new names, different from each other, and there are some
only if it is complex. -/
structure Enriches (ms : List Mapping) (a b : Attribute) : Prop where
  same : { b with subAttributes := a.subAttributes } = a
  added : ∃ added, b.subAttributes = a.subAttributes ++ added ∧ (namesOf added).Nodup ∧
    (∀ name ∈ namesOf added, name ∉ namesOf a.subAttributes) ∧
    (added ≠ [] → a.type = .complex) ∧
    ∀ s ∈ added, ∃ m ∈ ms, m.parentPath? = some a.name ∧ s = m.definition

theorem Enriches.name {ms : List Mapping} (h : Enriches ms a b) : b.name = a.name := by
  have hname := congrArg Attribute.name h.same
  exact hname

theorem enriches_refl (ms : List Mapping) (a : Attribute) : Enriches ms a a where
  same := by cases a; rfl
  added := ⟨[], by simp [namesOf]⟩

theorem enriches_extended (ms : List Mapping) (a : Attribute) : Enriches ms a (extended ms a) := by
  unfold extended
  split
  · rename_i hcomplex
    refine ⟨by cases a; rfl, _, rfl, nodup_newcomers _ _, fun _ => not_mem_of_mem_newcomers,
      fun _ => hcomplex, fun s hs => ?_⟩
    obtain ⟨m, hm, rfl⟩ := List.mem_map.1 (newcomers_subset _ _ hs)
    obtain ⟨hmem, hparent⟩ := List.mem_filter.1 hm
    exact ⟨m, hmem, by simpa using hparent, rfl⟩
  · exact enriches_refl ms a

theorem Enriches.mono {ms ms' : List Mapping} (h : Enriches ms a b) (hms : ms ⊆ ms') :
    Enriches ms' a b := by
  obtain ⟨added, hadded, hnodup, hnew, hcomplex, hall⟩ := h.added
  refine ⟨h.same, added, hadded, hnodup, hnew, hcomplex, fun s hs => ?_⟩
  obtain ⟨m, hm, hs⟩ := hall s hs
  exact ⟨m, hms hm, hs⟩

/-! ## The contents of a schema -/

/-- The core attributes of a kind. -/
def coreOf : ObjectKind → List Attribute
  | .user => coreUser
  | .group => coreGroup

/-- The mappings whose attributes the schema of a kind publishes. -/
def mappingsOf (c : MappingConfig) : ObjectKind → List Mapping
  | .user => c.coreUser
  | .group => []

/-- Whether a property is published: it has a definition with members, the core attributes do not
cover it, and it is not internal. -/
def isPublished (p : String × Value) : Bool :=
  p.2.members?.isSome && p.1 ∉ coveredNames && !beginsWith "_" p.1 && p.1 ∉ internalNames

/-- The names of published properties, in the order of the map. -/
def publishedNames (properties : Fields Value) : List String :=
  (properties.filter isPublished).map Prod.fst

/-- The paths without a dot that are new, in the order of their first occurrence. -/
def newPaths (taken : List String) (ms : List Mapping) : List String :=
  (((ms.map (·.path)).filter ('.' ∉ ·.toList)).filter (· ∉ taken)).eraseDups

/-- The properties of a map that may be absent. -/
def fieldsOf (properties : Option PropertyMap) : Fields Value :=
  (properties.map PropertyMap.fields).getD []

/-- The attributes of a schema before sub-attributes are added. -/
def plainAttributes (kind : ObjectKind) (properties : Fields Value) (c : MappingConfig) :
    List Attribute :=
  let front := coreOf kind ++ propertyAttributes properties
  front ++ newcomers (namesOf front) (topsOf (mappingsOf c kind))

theorem name_propertyAttribute? (p : String × Value) :
    (propertyAttribute? p).map (·.name) = if isPublished p then some p.1 else none := by
  unfold propertyAttribute? isPublished isInternal
  by_cases hcovered : p.1 ∈ coveredNames
  · simp [hcovered]
  by_cases hinternal : p.1 ∈ internalNames
  · simp [hinternal]
  cases hmark : beginsWith "_" p.1 with
  | true => simp
  | false =>
    cases hmembers : p.2.members? with
    | none => simp [hcovered, hinternal]
    | some members => simp [hcovered, hinternal, propertyAttribute]

theorem namesOf_propertyAttributes (properties : Fields Value) :
    namesOf (propertyAttributes properties) = publishedNames properties := by
  rw [namesOf, propertyAttributes, List.map_filterMap, publishedNames]
  induction properties with
  | nil => rfl
  | cons p rest ih =>
    rw [List.filterMap_cons, name_propertyAttribute?]
    cases hp : isPublished p with
    | true => simpa [List.filter_cons_of_pos hp] using ih
    | false => simpa [List.filter_cons_of_neg (Bool.eq_false_iff.1 hp)] using ih

theorem namesOf_topsOf (ms : List Mapping) :
    namesOf (topsOf ms) = (ms.map (·.path)).filter ('.' ∉ ·.toList) := by
  induction ms with
  | nil => rfl
  | cons m rest ih =>
    by_cases hdot : '.' ∈ m.path.toList
    · have hnested : m.isNested = true := by simpa [Mapping.isNested] using hdot
      rw [List.map_cons, List.filter_cons_of_neg (by simpa using hdot), ← ih, topsOf,
        List.filter_cons_of_neg (by simp [hnested])]
      rfl
    · have hnested : m.isNested = false := by simpa [Mapping.isNested] using hdot
      rw [List.map_cons, List.filter_cons_of_pos (by simpa using hdot), ← ih, topsOf,
        List.filter_cons_of_pos (by simp [hnested])]
      show m.leafName :: _ = _
      rw [Mapping.leafName_of_not_isNested hnested]
      rfl

/-- The names of a schema in order. -/
theorem namesOf_plainAttributes (kind : ObjectKind) (properties : Fields Value)
    (c : MappingConfig) :
    let front := namesOf (coreOf kind) ++ publishedNames properties
    namesOf (plainAttributes kind properties c) =
      front ++ newPaths front (mappingsOf c kind) := by
  simp only [plainAttributes, namesOf_append, namesOf_propertyAttributes, namesOf_newcomers,
    namesOf_topsOf, newPaths]

/-- The core attributes of users and the published properties repeat no name. -/
theorem nodup_front (properties : Option PropertyMap) :
    (namesOf (coreUser ++ propertyAttributes (fieldsOf properties))).Nodup := by
  have hfields : fieldsOf properties = (properties.getD .empty).fields := by
    cases properties <;> rfl
  rw [hfields]
  exact nodup_append_properties (by decide) (by decide) _

theorem attributes_eq (kind : ObjectKind) (properties : Option PropertyMap) (c : MappingConfig) :
    Schema.attributes kind (properties.map PropertyMap.fields) c =
      (plainAttributes kind (fieldsOf properties) c).map
        (extended ((mappingsOf c kind).filter Mapping.isNested)) := by
  cases kind with
  | user =>
    have h := addMappings_eq false c.coreUser (nodup_front properties)
    simp only [standIns_false, newcomers_nil, List.append_nil] at h
    exact h
  | group =>
    have hplain : plainAttributes .group (fieldsOf properties) c =
        coreGroup ++ propertyAttributes (fieldsOf properties) := by
      simp [plainAttributes, coreOf, mappingsOf, topsOf, newcomers_nil]
    rw [hplain, mappingsOf, List.filter_nil]
    exact (List.map_id'' extended_nil _).symm

/-! ## The contents of the extension -/

/-- Whether no attribute has two sub-attributes of one name. -/
def SubsDistinct (attributes : List Attribute) : Prop :=
  ∀ a ∈ attributes, (namesOf a.subAttributes).Nodup

theorem SubsDistinct.append (h : SubsDistinct attributes) (ha : (namesOf a.subAttributes).Nodup) :
    SubsDistinct (attributes ++ [a]) := by
  intro b hb
  rcases List.mem_append.1 hb with hb | hb
  · exact h b hb
  · rwa [List.mem_singleton.1 hb]

theorem nodup_extendParent (m : Mapping) (h : (namesOf a.subAttributes).Nodup) :
    (namesOf (extendParent m a).subAttributes).Nodup := by
  unfold extendParent
  split
  · rename_i hnew
    have hfree : m.definition.name ∉ namesOf a.subAttributes := sub?_isNone_iff.1 hnew.2
    rw [namesOf, List.map_append, List.map_singleton, ← List.concat_eq_append]
    exact h.concat hfree
  · exact h

theorem SubsDistinct.modifyNamed (h : SubsDistinct attributes) (name : String) (m : Mapping) :
    SubsDistinct (modifyNamed name (extendParent m) attributes) := by
  induction attributes with
  | nil => exact h
  | cons a rest ih =>
    obtain ⟨ha, hrest⟩ := List.forall_mem_cons.1 h
    rw [Schema.modifyNamed]
    split
    · exact List.forall_mem_cons.2 ⟨nodup_extendParent m ha, hrest⟩
    · exact List.forall_mem_cons.2 ⟨ha, ih hrest⟩

theorem SubsDistinct.addTop (h : SubsDistinct attributes) (m : Mapping) :
    SubsDistinct (addTop attributes m) := by
  unfold Schema.addTop
  split
  · exact h
  · exact h.append List.nodup_nil

theorem SubsDistinct.addNested (h : SubsDistinct attributes) (makeParents : Bool) (m : Mapping) :
    SubsDistinct (addNested makeParents attributes m) := by
  unfold Schema.addNested
  split
  · exact h
  · split
    · exact h.modifyNamed _ m
    · split
      · exact h.append (List.nodup_singleton _)
      · exact h

theorem SubsDistinct.addMappings (h : SubsDistinct attributes) (makeParents : Bool)
    (ms : List Mapping) : SubsDistinct (addMappings makeParents attributes ms) := by
  have htops := List.foldlRecOn (motive := SubsDistinct) (ms.filter fun m => !m.isNested)
    Schema.addTop h fun _ has m _ => has.addTop m
  exact List.foldlRecOn (motive := SubsDistinct) _ _ htops
    fun _ has m _ => has.addNested makeParents m

/-- Mappings of the extension come to nothing iff each path has at least two dots. -/
theorem addMappings_eq_nil_iff (ms : List Mapping) :
    addMappings true [] ms = [] ↔ ∀ m ∈ ms, 2 ≤ m.path.toList.count '.' := by
  have hdepth : ∀ m : Mapping, m.depth = m.path.toList.count '.' + 1 := fun m => by
    rw [Mapping.depth, Resource.segments, cutText, List.length_map, length_cutAt]
  have hnames : addMappings true [] ms = [] ↔
      ∀ name, name ∉ namesOf (addMappings true [] ms) := by
    rw [← List.eq_nil_iff_forall_not_mem, namesOf, List.map_eq_nil_iff]
  rw [hnames]
  constructor
  · intro h m hm
    have hdeep : ¬m.depth ≤ 2 := fun hle =>
      h m.root (mem_namesOf_addMappings.2 (.inr ⟨m, hm, rfl, hle⟩))
    rw [hdepth] at hdeep
    omega
  · intro h name hname
    rcases mem_namesOf_addMappings.1 hname with hnone | ⟨m, hm, -, hle⟩
    · cases hnone
    · have hdots := h m hm
      rw [if_pos rfl, hdepth] at hle
      omega

/-! ## All schemas -/

/-- Every schema can be compiled. Its names are those of the core attributes, of the published
properties in the order of the map, and of the mapped attributes at the top that are new; each
attribute is what it is on its own, but for sub-attributes that mappings add. The extension can be
compiled, too, and is left out iff each of its attributes lies at least two objects deep. -/
theorem compile_lists_exactly (c : MappingConfig) :
    (∀ (kind : ObjectKind) (properties : Option PropertyMap),
      let front := namesOf (coreOf kind) ++ publishedNames (fieldsOf properties)
      ∃ d, compile kind (properties.map PropertyMap.fields) c = .ok d ∧
        d.names = front ++ newPaths front (mappingsOf c kind) ∧ d.names.Nodup ∧
        List.Forall₂ (Enriches (mappingsOf c kind))
          (plainAttributes kind (fieldsOf properties) c) d.attributes) ∧
    ∃ d?, compileExtension c = .ok d? ∧
      (∀ d ∈ d?, d.names.Nodup ∧ SubsDistinct d.attributes) ∧
      (d? = none ↔ ∀ m ∈ c.enterprise, 2 ≤ m.path.toList.count '.') := by
  constructor
  · intro kind properties front
    obtain ⟨d, hcompiled, -, hattributes⟩ := compile_eq kind properties c
    rw [attributes_eq] at hattributes
    have hnested : (mappingsOf c kind).filter Mapping.isNested ⊆ mappingsOf c kind :=
      List.filter_sublist.subset
    refine ⟨d, hcompiled, ?_, d.distinct, ?_⟩
    · rw [SchemaDocument.names, hattributes, ← namesOf_plainAttributes, List.map_map]
      refine List.map_congr_left fun a _ => ?_
      exact (enriches_extended _ a).name
    · rw [hattributes, List.forall₂_map_right_iff, List.forall₂_same]
      exact fun a _ => (enriches_extended _ a).mono hnested
  · obtain ⟨d?, hcompiled, heach, hnone⟩ := compileExtension_eq c
    refine ⟨d?, hcompiled, fun d hd => ⟨d.distinct, ?_⟩, ?_⟩
    · rw [(heach d hd).2]
      exact SubsDistinct.addMappings (by simp [SubsDistinct]) true _
    · rw [hnone, addMappings_eq_nil_iff]

end Schema

end ScimBridge
