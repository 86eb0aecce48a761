import Mathlib.Data.List.Basic
import ScimBridge.Json.Fields

/-!
# Names and what is stored under them

A name is found iff it is among the names (`isSome_get?_iff`). Where no name occurs twice, what is
found is what is listed (`get?_eq_some_iff`). Storing and dropping keep the names among given ones
(`keys_put_subset`, `keys_erase_subset`, `keys_foldl_subset`). Entries stored one after the other
leave under each name the last one that was stored (`get?_putAll`), or the first one if none is
replaced (`get?_foldl_putNew`). So lists that are equal without the entries of a name store the same
under every other one (`get?_reverse_congr`).
-/

namespace ScimBridge

namespace Fields

variable {α β : Type}

theorem isSome_get?_iff {fs : Fields α} {name : String} :
    (fs.get? name).isSome = true ↔ name ∈ fs.keys := by
  induction fs with
  | nil => simp [get?_nil, keys]
  | cons p rest ih =>
    obtain ⟨k, v⟩ := p
    by_cases h : name = k
    · simp [get?_cons, keys, h]
    · simpa [get?_cons, keys, h] using ih

theorem get?_eq_none_iff {fs : Fields α} {name : String} :
    fs.get? name = none ↔ name ∉ fs.keys := by
  rw [← isSome_get?_iff, Option.not_isSome_iff_eq_none]

theorem get?_eq_some_iff {fs : Fields α} (h : fs.keys.Nodup) {name : String} {v : α} :
    fs.get? name = some v ↔ (name, v) ∈ fs := by
  induction fs with
  | nil => simp [get?_nil]
  | cons p rest ih =>
    obtain ⟨k, w⟩ := p
    obtain ⟨hk, hrest⟩ := List.nodup_cons.1 h
    by_cases hname : name = k
    · subst hname
      have hnot : (name, v) ∉ rest := fun hmem => hk (List.mem_map.2 ⟨_, hmem, rfl⟩)
      simp [get?_cons, hnot, eq_comm]
    · simpa [get?_cons, hname] using ih hrest

/-! ## Names among given ones -/

variable {names : List String} {fs : Fields α}

theorem keys_put_subset (h : fs.keys ⊆ names) {name : String} (hname : name ∈ names) (v : α) :
    (fs.put name v).keys ⊆ names := by
  intro other hother
  rcases (mem_keys_put fs name other v).1 hother with rfl | hold
  · exact hname
  · exact h hold

theorem keys_erase_subset (h : fs.keys ⊆ names) (name : String) : (fs.erase name).keys ⊆ names := by
  intro other hother
  obtain ⟨p, hp, rfl⟩ := List.mem_map.1 hother
  exact h (List.mem_map_of_mem (List.mem_filter.1 hp).1)

/-- Steps that keep the names among given ones do so one after the other. -/
theorem keys_foldl_subset {step : Fields α → β → Fields α} {items : List β} (h : fs.keys ⊆ names)
    (hstep : ∀ acc : Fields α, acc.keys ⊆ names → ∀ b ∈ items, (step acc b).keys ⊆ names) :
    (items.foldl step fs).keys ⊆ names :=
  List.foldlRecOn (motive := fun acc : Fields α => acc.keys ⊆ names) items step h hstep

/-- What holds after some steps held before or was added by one of them, if each step adds as much
wherever an invariant holds. -/
theorem foldl_iff {σ ι : Type} (invariant holds : σ → Prop) (adds : ι → Prop) {step : σ → ι → σ}
    {items : List ι} (hkeep : ∀ s, invariant s → ∀ i ∈ items, invariant (step s i))
    (hstep : ∀ s, invariant s → ∀ i ∈ items, (holds (step s i) ↔ holds s ∨ adds i)) {s : σ}
    (hs : invariant s) : holds (items.foldl step s) ↔ holds s ∨ ∃ i ∈ items, adds i := by
  induction items generalizing s with
  | nil => simp
  | cons i rest ih =>
    have hrest := ih (fun s hs j hj => hkeep s hs j (List.mem_cons_of_mem _ hj))
      (fun s hs j hj => hstep s hs j (List.mem_cons_of_mem _ hj))
      (hkeep s hs i List.mem_cons_self)
    rw [List.foldl_cons, hrest, hstep s hs i List.mem_cons_self, List.exists_mem_cons_iff, or_assoc]

/-- Storing adds at most the stored value. -/
theorem mem_put {p : String × α} {name : String} {v : α} (h : p ∈ fs.put name v) :
    p.2 = v ∨ p ∈ fs := by
  induction fs with
  | nil => simp_all [put]
  | cons q rest ih =>
    obtain ⟨k, w⟩ := q
    by_cases hk : name = k
    · subst hk
      simp only [put, beq_self_eq_true, if_true, List.mem_cons] at h
      rcases h with rfl | h
      · exact .inl rfl
      · exact .inr (List.mem_cons_of_mem _ h)
    · simp only [put, beq_iff_eq, hk, if_false, List.mem_cons] at h
      rcases h with rfl | h
      · exact .inr List.mem_cons_self
      · exact (ih h).imp_right (List.mem_cons_of_mem _)

theorem length_le_length_put (fs : Fields α) (name : String) (v : α) :
    fs.length ≤ (fs.put name v).length := by
  induction fs with
  | nil => exact Nat.zero_le _
  | cons p rest ih =>
    unfold put
    split
    · exact Nat.le_refl _
    · exact Nat.succ_le_succ ih

/-! ## Storing twice -/

theorem put_put_self (fs : Fields α) (name : String) (v w : α) :
    (fs.put name v).put name w = fs.put name w := by
  induction fs with
  | nil => simp [put]
  | cons p rest ih =>
    obtain ⟨k, x⟩ := p
    by_cases h : name = k <;> simp [put, h, ih]

/-- To store what is there changes nothing. -/
theorem put_of_get? {name : String} {v : α} (h : fs.get? name = some v) : fs.put name v = fs := by
  induction fs with
  | nil => cases h
  | cons p rest ih =>
    obtain ⟨k, x⟩ := p
    rw [get?_cons] at h
    by_cases hk : name = k <;> simp_all [put]

/-- Under different names it does not matter what is stored first, but for the order. -/
theorem put_put_perm (fs : Fields α) {name other : String} (hne : name ≠ other) (v w : α) :
    ((fs.put name v).put other w).Perm ((fs.put other w).put name v) := by
  induction fs with
  | nil => simpa [put, hne, hne.symm] using List.Perm.swap _ _ _
  | cons p rest ih =>
    obtain ⟨k, x⟩ := p
    by_cases hname : name = k
    · subst hname
      simp [put, hne.symm]
    · by_cases hother : other = k
      · subst hother
        simp [put, hne]
      · simpa [put, hname, hother] using ih

/-! ## Several entries -/

theorem mem_of_get? {name : String} {v : α} (h : fs.get? name = some v) : (name, v) ∈ fs := by
  induction fs with
  | nil => cases h
  | cons p rest ih =>
    obtain ⟨k, w⟩ := p
    rw [get?_cons] at h
    split at h
    · rename_i hk
      rw [Option.some.injEq] at h
      rw [beq_iff_eq.1 hk, h]
      exact List.mem_cons_self
    · exact List.mem_cons_of_mem _ (ih h)

theorem get?_append (gs : Fields α) (name : String) :
    get? (fs ++ gs) name = (fs.get? name).or (gs.get? name) :=
  List.lookup_append

theorem get?_erase (fs : Fields α) (name other : String) :
    (fs.erase name).get? other = if other = name then none else fs.get? other := by
  induction fs with
  | nil => simp [erase, get?_nil]
  | cons p rest ih =>
    obtain ⟨k, v⟩ := p
    unfold erase at ih ⊢
    by_cases hk : k = name
    · subst hk
      rw [List.filter_cons_of_neg (by simp), ih, get?_cons]
      by_cases hother : other = k <;> simp [hother]
    · rw [List.filter_cons_of_pos (by simpa using hk), get?_cons, get?_cons, ih]
      by_cases hother : other = k <;> simp [hother, hk]

/-- What is listed under names is found under each of them. -/
theorem get?_filterMap (f : String → Option α) (names : List String) (name : String) :
    get? (names.filterMap fun n => (f n).map fun v => (n, v)) name
      = if name ∈ names then f name else none := by
  induction names with
  | nil => rfl
  | cons n rest ih =>
    rw [List.filterMap_cons]
    by_cases hn : name = n
    · subst hn
      cases hf : f name with
      | none => simp [ih, hf]
      | some v => simp [get?_cons]
    · cases hf : f n with
      | none => simp [ih, hn]
      | some v => simp [get?_cons, ih, hn]

theorem mem_filterMap_iff {f : String → Option α} {name : String} {v : α} :
    (name, v) ∈ names.filterMap (fun n => (f n).map fun v => (n, v)) ↔
      name ∈ names ∧ f name = some v := by
  rw [List.mem_filterMap]
  constructor
  · rintro ⟨n, hn, heq⟩
    obtain ⟨w, hw, heq⟩ := Option.map_eq_some_iff.1 heq
    obtain ⟨rfl, rfl⟩ := Prod.mk.inj heq
    exact ⟨hn, hw⟩
  · rintro ⟨hname, hv⟩
    exact ⟨name, hname, by rw [hv]; rfl⟩

/-- The last entry of a name is what is found, and what was there before where there is none. -/
theorem get?_putAll (fs : Fields α) (entries : List (String × α)) (name : String) :
    (fs.putAll entries).get? name = (get? entries.reverse name).or (fs.get? name) := by
  induction entries generalizing fs with
  | nil => rfl
  | cons p rest ih =>
    obtain ⟨k, v⟩ := p
    rw [show fs.putAll ((k, v) :: rest) = (fs.put k v).putAll rest from rfl, ih,
      List.reverse_cons, get?_append, Option.or_assoc, get?_put, get?_cons]
    by_cases hk : name = k <;> simp [hk, get?_nil]

/-- Steps that each store one entry or none store the entries one after the other. -/
theorem foldl_eq_putAll {step : Fields α → β → Fields α} {stored? : β → Option (String × α)}
    (hstep : ∀ acc b, step acc b = ((stored? b).map fun p => acc.put p.1 p.2).getD acc)
    (items : List β) (fs : Fields α) :
    items.foldl step fs = fs.putAll (items.filterMap stored?) := by
  induction items generalizing fs with
  | nil => rfl
  | cons b rest ih =>
    rw [List.foldl_cons, ih, hstep, List.filterMap_cons]
    cases stored? b <;> rfl

theorem putAll_append (fs : Fields α) (entries more : List (String × α)) :
    fs.putAll (entries ++ more) = (fs.putAll entries).putAll more :=
  List.foldl_append

/-- Where one item gives something and no other one does, this is all that is given. -/
theorem filterMap_eq_singleton {f : β → Option α} {items : List β}
    (h : items.Pairwise fun b b' => f b = none ∨ f b' = none) {b : β} (hb : b ∈ items) {a : α}
    (ha : f b = some a) : items.filterMap f = [a] := by
  induction items with
  | nil => cases hb
  | cons first rest ih =>
    obtain ⟨hfirst, hrest⟩ := List.pairwise_cons.1 h
    rcases List.mem_cons.1 hb with rfl | hmem
    · have hothers : rest.filterMap f = [] := List.filterMap_eq_nil_iff.2 fun b' hb' =>
        (hfirst b' hb').resolve_left (by simp [ha])
      rw [List.filterMap_cons, ha, hothers]
    · rw [List.filterMap_cons, (hfirst b hmem).resolve_right (by simp [ha])]
      exact ih hrest hmem

/-- Lists of optional entries agree but for one name where they differ under this name only. -/
theorem erase_filterMap_congr {f g : β → Option (String × α)} {items : List β} {name : String}
    (h : ∀ b ∈ items, f b = g b ∨
      (∀ p, f b = some p → p.1 = name) ∧ ∀ p, g b = some p → p.1 = name) :
    erase (items.filterMap f) name = erase (items.filterMap g) name := by
  have hdropped : ∀ {e : Option (String × α)}, (∀ p, e = some p → p.1 = name) →
      e.filter (fun p => p.1 != name) = none := fun he =>
    Option.filter_eq_none_iff.2 fun p hp => by simpa using he p hp
  unfold erase
  rw [List.filter_filterMap, List.filter_filterMap]
  refine List.filterMap_congr fun b hb => ?_
  rcases h b hb with heq | ⟨hf, hg⟩
  · rw [heq]
  · rw [hdropped hf, hdropped hg]

/-- The name of an optional entry. -/
theorem fst_of_map_eq_some {name : String} {v? : Option α} {p : String × α}
    (h : v?.map (fun v => (name, v)) = some p) : p.1 = name := by
  obtain ⟨v, -, rfl⟩ := Option.map_eq_some_iff.1 h
  rfl

theorem erase_append (fs gs : Fields α) (name : String) :
    erase (fs ++ gs) name = fs.erase name ++ gs.erase name :=
  List.filter_append ..

/-- Under any other name, the last entry does not depend on those of a name. -/
theorem get?_reverse_congr {gs : Fields α} {name other : String}
    (h : fs.erase name = gs.erase name) (hne : other ≠ name) :
    get? fs.reverse other = get? gs.reverse other := by
  have herase : ∀ fs : Fields α, get? fs.reverse other = get? (fs.erase name).reverse other :=
    fun fs => by
      rw [erase, ← List.filter_reverse]
      exact ((get?_erase fs.reverse name other).trans (if_neg hne)).symm
  rw [herase fs, h, ← herase gs]

/-- Under one name, the last of some optional entries does not depend on those of other names. -/
theorem get?_reverse_filterMap_congr {f g : β → Option (String × α)} {items : List β} {name : String}
    (h : ∀ b ∈ items, f b = g b ∨
      (∀ p, f b = some p → p.1 ≠ name) ∧ ∀ p, g b = some p → p.1 ≠ name) :
    get? (items.filterMap f).reverse name = get? (items.filterMap g).reverse name := by
  have hone : ∀ {e : Option (String × α)}, (∀ p, e = some p → p.1 ≠ name) →
      get? e.toList name = none := fun {e} he => by
    cases e with
    | none => rfl
    | some p => exact (get?_cons ..).trans (if_neg (by simpa using (he p rfl).symm))
  have hcons : ∀ (f : β → Option (String × α)) (b : β) (rest : List β),
      get? ((b :: rest).filterMap f).reverse name =
        (get? (rest.filterMap f).reverse name).or (get? (f b).toList name) := fun f b rest => by
    rw [List.filterMap_cons]
    cases f b with
    | none => exact Option.or_none.symm
    | some p =>
      rw [List.reverse_cons, get?_append]
      rfl
  induction items with
  | nil => rfl
  | cons b rest ih =>
    obtain ⟨hb, hrest⟩ := List.forall_mem_cons.1 h
    rw [hcons, hcons, ih hrest]
    rcases hb with heq | ⟨hf, hg⟩
    · rw [heq]
    · rw [hone hf, hone hg]

/-! ## Names that occur once -/

/-- Storing keeps each name from occurring twice. -/
theorem nodup_keys_put {fs : Fields α} (h : fs.keys.Nodup) (name : String) (v : α) :
    (fs.put name v).keys.Nodup := by
  induction fs with
  | nil => exact List.pairwise_singleton _ _
  | cons p rest ih =>
    obtain ⟨k, w⟩ := p
    obtain ⟨hk, hrest⟩ := List.nodup_cons.1 h
    unfold put
    split
    · exact h
    · rename_i hname
      refine List.nodup_cons.2 ⟨fun hmem => ?_, ih hrest⟩
      rcases (mem_keys_put rest name k v).1 hmem with rfl | hold
      · exact hname (beq_self_eq_true k)
      · exact hk hold

theorem nodup_keys_putAll {fs : Fields α} (h : fs.keys.Nodup) (entries : List (String × α)) :
    (fs.putAll entries).keys.Nodup :=
  List.foldlRecOn (motive := fun acc : Fields α => acc.keys.Nodup) entries
    (fun acc p => acc.put p.1 p.2) h fun _ hacc p _ => nodup_keys_put hacc p.1 p.2

theorem nodup_keys_putNew {fs : Fields α} (h : fs.keys.Nodup) (name : String) (v : α) :
    (fs.putNew name v).keys.Nodup := by
  unfold putNew
  split
  · exact h
  · exact nodup_keys_put h name v

theorem get?_putNew (fs : Fields α) (name other : String) (v : α) :
    (fs.putNew name v).get? other = (fs.get? other).or (if other = name then some v else none) := by
  unfold putNew has
  by_cases hother : other = name
  · subst hother
    cases hget : fs.get? other with
    | none => simp [get?_put_self]
    | some w => simp [hget]
  · split
    · rw [Option.or_none]
    · rw [Option.or_none, get?_put_of_ne fs v hother]

/-- Names that are stored unless they are there lead to themselves. -/
theorem get?_foldl_putNew (fs : Fields String) (names : List String) (name : String) :
    get? (names.foldl (fun acc n => acc.putNew n n) fs) name =
      (fs.get? name).or (if name ∈ names then some name else none) := by
  induction names generalizing fs with
  | nil => simp
  | cons n rest ih =>
    rw [List.foldl_cons, ih, get?_putNew, Option.or_assoc]
    congr 1
    by_cases hn : name = n <;> simp [hn]

/-! ## Tables -/

/-- The entries of a table that have a value. -/
def present (table : List (String × Option α)) : Fields α :=
  table.filterMap fun entry => entry.2.map fun v => (entry.1, v)

theorem present_append (table more : List (String × Option α)) :
    present (table ++ more) = present table ++ present more :=
  List.filterMap_append

theorem mem_present {table : List (String × Option α)} {name : String} {v : α} :
    (name, v) ∈ present table ↔ (name, some v) ∈ table := by
  unfold present
  rw [List.mem_filterMap]
  constructor
  · rintro ⟨⟨n, v?⟩, hmem, hv⟩
    obtain ⟨w, rfl, heq⟩ := Option.map_eq_some_iff.1 hv
    obtain ⟨rfl, rfl⟩ := Prod.mk.inj heq
    exact hmem
  · exact fun hmem => ⟨_, hmem, rfl⟩

/-- Where a table lists each name once, a name has the value that is listed for it. -/
theorem get?_present {table : List (String × Option α)} (h : (table.map Prod.fst).Nodup)
    {name : String} {v? : Option α} (hmem : (name, v?) ∈ table) :
    (present table).get? name = v? := by
  induction table with
  | nil => cases hmem
  | cons entry rest ih =>
    obtain ⟨n, w?⟩ := entry
    obtain ⟨hn, hrest⟩ := List.nodup_cons.1 h
    rcases List.mem_cons.1 hmem with heq | hin
    · obtain ⟨rfl, rfl⟩ := Prod.mk.inj heq
      cases v? with
      | some v => exact (get?_cons _ _ _ _).trans (if_pos (beq_self_eq_true name))
      | none =>
        show (present rest).get? name = none
        refine get?_eq_none_iff.2 fun hkey => hn ?_
        obtain ⟨p, hp, rfl⟩ := List.mem_map.1 hkey
        exact List.mem_map.2 ⟨_, mem_present.1 hp, rfl⟩
    · have hne : name ≠ n := by
        rintro rfl
        exact hn (List.mem_map.2 ⟨_, hin, rfl⟩)
      rw [← ih hrest hin]
      cases w? with
      | some w => exact (get?_cons _ _ _ _).trans (if_neg (by simpa using hne))
      | none => rfl

end Fields

end ScimBridge
