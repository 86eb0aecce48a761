import ScimBridge.Proofs.Schema.Contents

/-!
# Mappings in another order

What is published does not depend on the order of the mappings, where no path occurs twice in the
core schema or in the extension: the same names are declared, and the attribute of each name is the
same but for the order of its sub-attributes (`compile_reordered`).

1. Where attributes are told apart by their names, those that are new are the same in every order
   (`newcomers_perm`).
2. The paths tell apart the attributes at the top, those below one parent, and the parents that are
   made up, so each step of the compiler is settled by 1 (`exists_reordered_addMappings`).
3. A document is read by name, so the order of its attributes does not show
   (`ofAttributes_reordered`).
-/

namespace ScimBridge

/-! ## The same up to order -/

/-- The same attribute but for the order of its sub-attributes. -/
structure Attribute.Reordered (a b : Attribute) : Prop where
  same : { b with subAttributes := a.subAttributes } = a
  subs : a.subAttributes.Perm b.subAttributes

theorem Attribute.Reordered.name_eq {a b : Attribute} (h : a.Reordered b) : a.name = b.name := by
  have hname := congrArg Attribute.name h.same
  exact hname.symm

/-- Two schemas that declare the same names, with the same attribute for each name but for the order
of its sub-attributes. -/
structure SchemaDocument.Reordered (d e : SchemaDocument) : Prop where
  id : d.id = e.id
  name : d.name = e.name
  description : d.description = e.description
  names : d.names.Perm e.names
  attributes : ∀ name, Option.Rel Attribute.Reordered (d.attribute? name) (e.attribute? name)

/-- The path of a nested attribute is that of the attribute around it, a dot, and its last name. -/
theorem Mapping.path_of_parentPath? {m : Mapping} {parent : String}
    (h : m.parentPath? = some parent) : m.path = parent ++ "." ++ m.leafName := by
  obtain ⟨hnested, hparent⟩ := Option.ite_none_right_eq_some.1 h
  have hne := cutAt_ne_nil '.' m.path.toList
  have hfront : (cutAt '.' m.path.toList).dropLast ≠ [] := by
    have hdot : '.' ∈ m.path.toList := List.contains_iff_mem.1 hnested
    have hlength := @length_cutAt '.' m.path.toList
    have hcount := List.count_pos_iff.2 hdot
    refine List.ne_nil_of_length_pos ?_
    rw [List.length_dropLast]
    omega
  have hjoin := joinWith_cutAt '.' m.path.toList
  rw [← List.dropLast_append_getLast hne, joinWith_concat hfront] at hjoin
  rw [← Option.some.inj hparent, leafName]
  refine String.toList_inj.1 ?_
  simp [hjoin]

namespace Schema

variable {taken taken' : List String} {l l' : List Attribute} {a : Attribute} {ms ms' : List Mapping}

/-! ## New names in another order -/

/-- Attributes that are told apart by their names. -/
def ToldApart (l : List Attribute) : Prop := ∀ a ∈ l, ∀ b ∈ l, a.name = b.name → a = b

theorem mem_newcomers_iff (h : ToldApart l) :
    a ∈ newcomers taken l ↔ a ∈ l ∧ a.name ∉ taken := by
  constructor
  · exact fun ha => ⟨newcomers_subset _ _ ha, not_mem_of_mem_newcomers (List.mem_map_of_mem ha)⟩
  · rintro ⟨ha, hfree⟩
    have hname : a.name ∈ namesOf (newcomers taken l) := by
      rw [namesOf_newcomers, List.mem_eraseDups, List.mem_filter]
      exact ⟨List.mem_map_of_mem ha, by simpa using hfree⟩
    obtain ⟨b, hb, hba⟩ := List.mem_map.1 hname
    rwa [h a ha b (newcomers_subset _ _ hb) hba.symm]

theorem newcomers_perm (h : ToldApart l) (hl : l.Perm l') (htaken : taken.Perm taken') :
    (newcomers taken l).Perm (newcomers taken' l') := by
  have h' : ToldApart l' := fun a ha b hb => h a (hl.mem_iff.2 ha) b (hl.mem_iff.2 hb)
  refine (List.perm_ext_iff_of_nodup (.of_map _ (nodup_newcomers _ _))
    (.of_map _ (nodup_newcomers _ _))).2 fun a => ?_
  rw [mem_newcomers_iff h, mem_newcomers_iff h', hl.mem_iff, htaken.mem_iff]

/-! ## Attributes of mappings in another order -/

/-- No path occurs twice. -/
def PathsDistinct (ms : List Mapping) : Prop := (ms.map (·.path)).Nodup

instance (ms : List Mapping) : Decidable (PathsDistinct ms) :=
  inferInstanceAs (Decidable (List.Nodup _))

theorem PathsDistinct.eq (h : PathsDistinct ms) {m m' : Mapping} (hm : m ∈ ms) (hm' : m' ∈ ms)
    (hpath : m.path = m'.path) : m = m' :=
  List.inj_on_of_nodup_map h hm hm' hpath

theorem PathsDistinct.filter (h : PathsDistinct ms) (p : Mapping → Bool) :
    PathsDistinct (ms.filter p) :=
  h.sublist (List.filter_sublist.map _)

theorem toldApart_topsOf (h : PathsDistinct ms) : ToldApart (topsOf ms) := by
  rintro a ha b hb hname
  obtain ⟨m, hm, rfl⟩ := List.mem_map.1 ha
  obtain ⟨m', hm', rfl⟩ := List.mem_map.1 hb
  rw [List.mem_filter, Bool.not_eq_true'] at hm hm'
  have hpath : m.path = m'.path :=
    (Mapping.leafName_of_not_isNested hm.2).symm.trans
      (hname.trans (Mapping.leafName_of_not_isNested hm'.2))
  rw [h.eq hm.1 hm'.1 hpath]

/-- Below one parent, attributes with one name have one path. -/
theorem toldApart_childrenOf (h : PathsDistinct ms) (a : Attribute) :
    ToldApart (childrenOf ms a) := by
  rintro b hb b' hb' hname
  obtain ⟨m, hm, rfl⟩ := List.mem_map.1 hb
  obtain ⟨m', hm', rfl⟩ := List.mem_map.1 hb'
  rw [List.mem_filter, beq_iff_eq] at hm hm'
  have hleaf : m.leafName = m'.leafName := hname
  have hpath : m.path = m'.path := by
    rw [Mapping.path_of_parentPath? hm.2, Mapping.path_of_parentPath? hm'.2, hleaf]
  rw [h.eq hm.1 hm'.1 hpath]

theorem toldApart_standIns (makeParents : Bool) (ms : List Mapping) :
    ToldApart (standIns makeParents ms) := by
  rintro a ha b hb hname
  obtain ⟨-, -, -, -, -, ha⟩ := mem_standIns.1 ha
  obtain ⟨-, -, -, -, -, hb⟩ := mem_standIns.1 hb
  rw [ha, hb, hname]

theorem namesOf_perm (h : l.Perm l') : (namesOf l).Perm (namesOf l') := h.map _

theorem topsOf_perm (h : ms.Perm ms') : (topsOf ms).Perm (topsOf ms') := (h.filter _).map _

theorem childrenOf_perm (h : ms.Perm ms') (a : Attribute) :
    (childrenOf ms a).Perm (childrenOf ms' a) :=
  (h.filter _).map _

theorem standIns_perm (makeParents : Bool) (h : ms.Perm ms') :
    (standIns makeParents ms).Perm (standIns makeParents ms') := by
  cases makeParents with
  | false => exact .refl _
  | true => exact ((h.filterMap _).filter _).map _

/-- An attribute that is extended in another order. -/
theorem reordered_extended (h : PathsDistinct ms) (hms : ms.Perm ms') (a : Attribute) :
    (extended ms a).Reordered (extended ms' a) := by
  unfold extended
  split
  · refine ⟨by cases a; rfl, List.Perm.append_left _ ?_⟩
    exact newcomers_perm (toldApart_childrenOf h a) (childrenOf_perm hms a) (.refl _)
  · exact ⟨by cases a; rfl, .refl _⟩

/-- With mappings in another order, attributes are added in another order, each the same but for the
order of its sub-attributes. -/
theorem exists_reordered_addMappings (makeParents : Bool) {attributes : List Attribute}
    (hnames : (namesOf attributes).Nodup) (h : PathsDistinct ms) (hms : ms.Perm ms') :
    ∃ l, List.Forall₂ Attribute.Reordered (addMappings makeParents attributes ms) l ∧
      l.Perm (addMappings makeParents attributes ms') := by
  have htops : (attributes ++ newcomers (namesOf attributes) (topsOf ms)).Perm
      (attributes ++ newcomers (namesOf attributes) (topsOf ms')) :=
    (newcomers_perm (toldApart_topsOf h) (topsOf_perm hms) (.refl _)).append_left _
  have hnested : (ms.filter Mapping.isNested).Perm (ms'.filter Mapping.isNested) := hms.filter _
  have hstand := newcomers_perm (toldApart_standIns makeParents _)
    (standIns_perm makeParents hnested) (namesOf_perm htops)
  rw [addMappings_eq makeParents ms hnames, addMappings_eq makeParents ms' hnames]
  refine ⟨_, ?_, (htops.append hstand).map _⟩
  rw [List.forall₂_map_left_iff, List.forall₂_map_right_iff, List.forall₂_same]
  exact fun a _ => reordered_extended (h.filter _) hnested a

/-! ## Documents -/

theorem find?_reordered (h : List.Forall₂ Attribute.Reordered l l') (name : String) :
    Option.Rel Attribute.Reordered (l.find? fun a => a.name == name)
      (l'.find? fun a => a.name == name) := by
  induction h with
  | nil => exact .none
  | @cons a b l l' hab _ ih =>
    rw [List.find?_cons, List.find?_cons, hab.name_eq]
    split
    · exact .some hab
    · exact ih

theorem find?_eq_some_iff (h : (namesOf l).Nodup) {name : String} :
    l.find? (fun a => a.name == name) = some a ↔ a ∈ l ∧ a.name = name := by
  constructor
  · intro hfind
    exact ⟨List.mem_of_find?_eq_some hfind, by simpa using List.find?_some hfind⟩
  · rintro ⟨ha, rfl⟩
    obtain ⟨b, hb⟩ : ∃ b, l.find? (fun b => b.name == a.name) = some b :=
      Option.isSome_iff_exists.1 (List.find?_isSome.2 ⟨a, ha, beq_self_eq_true _⟩)
    have hname : b.name = a.name := by simpa using List.find?_some hb
    rw [hb, List.inj_on_of_nodup_map h (List.mem_of_find?_eq_some hb) ha hname]

/-- Where no name occurs twice, the attribute of a name does not depend on the order. -/
theorem find?_perm (h : (namesOf l).Nodup) (hl : l.Perm l') (name : String) :
    l.find? (fun a => a.name == name) = l'.find? fun a => a.name == name := by
  refine Option.ext fun a => ?_
  rw [find?_eq_some_iff h, find?_eq_some_iff ((namesOf_perm hl).nodup_iff.1 h), hl.mem_iff]

/-- Documents of attributes that are the same up to order. -/
theorem ofAttributes_reordered (id : String) (name description : Value) {l m l' : List Attribute}
    (hnames : (namesOf l).Nodup) (hl : List.Forall₂ Attribute.Reordered l m) (hm : m.Perm l') :
    ∃ d e, SchemaDocument.ofAttributes id name description l = .ok d ∧
      SchemaDocument.ofAttributes id name description l' = .ok e ∧ d.Reordered e := by
  have hsame : namesOf l = namesOf m := by
    rw [← List.forall₂_eq_eq_eq, namesOf, namesOf, List.forall₂_map_left_iff,
      List.forall₂_map_right_iff]
    exact hl.imp fun _ _ h => h.name_eq
  have hperm : (namesOf l).Perm (namesOf l') := hsame ▸ namesOf_perm hm
  refine ⟨_, _, SchemaDocument.ofAttributes_of_nodup id name description hnames,
    SchemaDocument.ofAttributes_of_nodup id name description (hperm.nodup_iff.1 hnames),
    rfl, rfl, rfl, hperm, fun n => ?_⟩
  have hfind := find?_reordered hl n
  rwa [find?_perm (hsame ▸ hnames) hm] at hfind

/-- The extension is left out if there is nothing to declare, which does not depend on the order. -/
theorem compileExtension_reordered {c c' : MappingConfig}
    (hnames : (namesOf (addMappings true [] c.enterprise)).Nodup)
    (hl : List.Forall₂ Attribute.Reordered (addMappings true [] c.enterprise) l)
    (hperm : l.Perm (addMappings true [] c'.enterprise)) :
    ∃ d? e?, compileExtension c = .ok d? ∧ compileExtension c' = .ok e? ∧
      Option.Rel SchemaDocument.Reordered d? e? := by
  obtain ⟨d, e, hd, he, hde⟩ := ofAttributes_reordered Urn.enterpriseUser (.string "EnterpriseUser")
    (.string "Enterprise User Extension") hnames hl hperm
  unfold compileExtension
  generalize addMappings true [] c.enterprise = as at *
  generalize addMappings true [] c'.enterprise = bs at *
  cases hl with
  | nil =>
    cases hperm.nil_eq
    exact ⟨none, none, rfl, rfl, .none⟩
  | cons =>
    have hne : bs ≠ [] := by
      rintro rfl
      cases hperm.eq_nil
    obtain ⟨b, bs, rfl⟩ := List.exists_cons_of_ne_nil hne
    refine ⟨some d, some e, ?_, ?_, .some hde⟩
    · exact congrArg (Except.map some) hd
    · exact congrArg (Except.map some) he

/-- What stands at the top and what is nested, each in its order, settles what is added. -/
theorem addMappings_congr (makeParents : Bool) (attributes : List Attribute)
    (htops : ms.filter (fun m => !m.isNested) = ms'.filter fun m => !m.isNested)
    (hnested : ms.filter Mapping.isNested = ms'.filter Mapping.isNested) :
    addMappings makeParents attributes ms = addMappings makeParents attributes ms' := by
  simp only [addMappings]
  rw [htops, hnested]

/-- **The order of mappings does not show.** Where no path occurs twice in the core schema or in the
extension, the user schema and the extension that are compiled from mappings in another order declare
the same names, and for each name the same attribute but for the order of its sub-attributes. If the
order is another one only between mappings at the top and nested ones, such as a parent and what is
inside it, nothing at all is changed. -/
theorem compile_reordered {c c' : MappingConfig} (h : c.mappings.Perm c'.mappings)
    (hcore : PathsDistinct c.coreUser) (hextension : PathsDistinct c.enterprise)
    (properties : Option PropertyMap) :
    (∃ d e, compile .user (properties.map PropertyMap.fields) c = .ok d ∧
      compile .user (properties.map PropertyMap.fields) c' = .ok e ∧ d.Reordered e) ∧
    (∃ d? e?, compileExtension c = .ok d? ∧ compileExtension c' = .ok e? ∧
      Option.Rel SchemaDocument.Reordered d? e?) ∧
    (c.mappings.filter (fun m => !m.isNested) = c'.mappings.filter (fun m => !m.isNested) →
      c.mappings.filter Mapping.isNested = c'.mappings.filter Mapping.isNested →
      compile .user (properties.map PropertyMap.fields) c =
          compile .user (properties.map PropertyMap.fields) c' ∧
        compileExtension c = compileExtension c') := by
  refine ⟨?_, ?_, fun htops hnested => ?_⟩
  · obtain ⟨l, hl, hperm⟩ := exists_reordered_addMappings false (nodup_front properties) hcore
      (h.filter Mapping.isCoreUser)
    exact ofAttributes_reordered _ _ _ (nodup_addMappings false _ (nodup_front properties)) hl hperm
  · have hnone : (namesOf []).Nodup := List.nodup_nil
    obtain ⟨l, hl, hperm⟩ := exists_reordered_addMappings true hnone hextension
      (h.filter Mapping.isEnterprise)
    exact compileExtension_reordered (nodup_addMappings true _ hnone) hl hperm
  · have hfilter (p q : Mapping → Bool) (heq : c.mappings.filter q = c'.mappings.filter q) :
        (c.mappings.filter p).filter q = (c'.mappings.filter p).filter q := by
      rw [List.filter_comm, heq, List.filter_comm]
    constructor
    · unfold compile attributes
      simp only [MappingConfig.coreUser]
      rw [addMappings_congr false _ (hfilter _ _ htops) (hfilter _ _ hnested)]
    · unfold compileExtension
      simp only [MappingConfig.enterprise]
      rw [addMappings_congr true _ (hfilter _ _ htops) (hfilter _ _ hnested)]

/-- Two attributes inside a parent that is mapped last, and the parent in front of them. -/
theorem compile_reordered_parent_last :
    let value : Mapping :=
      { path := "manager.value", schema := Urn.enterpriseUser, backendAttribute := "managerId" }
    let display : Mapping :=
      { path := "manager.displayName", schema := Urn.enterpriseUser, backendAttribute := "boss" }
    let manager : Mapping :=
      { path := "manager", schema := Urn.enterpriseUser, backendAttribute := "manager",
        type := .complex }
    ∃ d? e?, compileExtension (.ofMappings [value, display, manager]) = .ok d? ∧
      compileExtension (.ofMappings [manager, display, value]) = .ok e? ∧
      Option.Rel SchemaDocument.Reordered d? e? := by
  intro value display manager
  have hperm : (MappingConfig.ofMappings [value, display, manager]).mappings.Perm
      (MappingConfig.ofMappings [manager, display, value]).mappings :=
    (List.reverse_perm [manager, display, value]).filter Mapping.isComplete
  exact (compile_reordered hperm (by decide +kernel) (by decide +kernel) none).2.1

end Schema

end ScimBridge
