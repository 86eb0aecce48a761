import ScimBridge.Proofs.Text.Trim
import ScimBridge.Text.Split

/-!
# Pieces of texts

No piece of a text that is cut holds the separator, and cutting a text behind a separator cuts the
two parts (`cutAt_append`). A text is cut in two at its last separator in one way only
(`last_separator_unique`), so what begins it ends before that separator or is cut there, too
(`prefix_cases`).
-/

namespace ScimBridge

variable {sep : Char}

/-- No piece holds the separator. -/
theorem not_mem_of_mem_cutAt {cs piece : List Char} (h : piece ∈ cutAt sep cs) : sep ∉ piece := by
  induction cs generalizing piece with
  | nil =>
    rw [cutAt, List.mem_singleton] at h
    rw [h]
    exact List.not_mem_nil
  | cons c cs ih =>
    unfold cutAt at h
    split at h
    · rcases List.mem_cons.1 h with rfl | h
      · exact List.not_mem_nil
      · exact ih h
    · rename_i hc
      split at h
      · rename_i hnil
        exact absurd hnil (cutAt_ne_nil sep cs)
      · rename_i first rest hcut
        rcases List.mem_cons.1 h with rfl | h
        · rw [List.mem_cons, not_or]
          exact ⟨fun hsep => hc hsep.symm, ih (hcut ▸ List.mem_cons_self)⟩
        · exact ih (hcut ▸ List.mem_cons_of_mem _ h)

theorem cutAt_of_not_mem {cs : List Char} (h : sep ∉ cs) : cutAt sep cs = [cs] := by
  induction cs with
  | nil => rfl
  | cons c cs ih =>
    rw [List.mem_cons, not_or] at h
    rw [cutAt, if_neg (Ne.symm h.1), ih h.2]

/-- There is one piece more than separators. -/
theorem length_cutAt (cs : List Char) : (cutAt sep cs).length = cs.count sep + 1 := by
  induction cs with
  | nil => rfl
  | cons c cs ih =>
    unfold cutAt
    split
    · rename_i hc
      rw [List.length_cons, ih, hc, List.count_cons_self]
    · rename_i hc
      cases hcut : cutAt sep cs with
      | nil => exact absurd hcut (cutAt_ne_nil sep cs)
      | cons piece pieces =>
        rw [hcut] at ih
        rw [List.count_cons_of_ne hc, ← ih]
        rfl

theorem joinWith_append {pieces more : List (List Char)} (h : pieces ≠ []) (hmore : more ≠ []) :
    joinWith sep (pieces ++ more) = joinWith sep pieces ++ sep :: joinWith sep more := by
  induction pieces with
  | nil => exact absurd rfl h
  | cons first pieces ih =>
    cases pieces with
    | nil =>
      obtain ⟨second, more, rfl⟩ := List.exists_cons_of_ne_nil hmore
      rfl
    | cons next pieces =>
      have hrest := ih (List.cons_ne_nil next pieces)
      simp only [List.cons_append, joinWith, List.append_assoc] at hrest ⊢
      rw [hrest]

theorem joinWith_concat {pieces : List (List Char)} (h : pieces ≠ []) (piece : List Char) :
    joinWith sep (pieces ++ [piece]) = joinWith sep pieces ++ sep :: piece :=
  joinWith_append h (List.cons_ne_nil piece [])

theorem cutAt_append (cs ds : List Char) :
    cutAt sep (cs ++ sep :: ds) = cutAt sep cs ++ cutAt sep ds := by
  induction cs with
  | nil => simp [cutAt]
  | cons c cs ih =>
    rw [List.cons_append, cutAt, cutAt]
    split
    · rw [ih, List.cons_append]
    · rw [ih]
      cases hcut : cutAt sep cs with
      | nil => exact absurd hcut (cutAt_ne_nil sep cs)
      | cons piece pieces => rfl

/-- Where the pieces of a text begin those of another one, the texts are equal or the first one and a
separator begin the other one. -/
theorem eq_or_prefix_of_cutAt {cs ds : List Char} (h : cutAt sep cs <+: cutAt sep ds) :
    ds = cs ∨ cs ++ [sep] <+: ds := by
  obtain ⟨more, hmore⟩ := h
  have hjoin := congrArg (joinWith sep) hmore
  rw [joinWith_cutAt] at hjoin
  by_cases hnil : more = []
  · rw [hnil, List.append_nil, joinWith_cutAt] at hjoin
    exact .inl hjoin.symm
  · rw [joinWith_append (cutAt_ne_nil sep cs) hnil, joinWith_cutAt] at hjoin
    exact .inr ⟨joinWith sep more, by rw [← hjoin]; simp⟩

theorem after?_eq_some_iff {beginning cs rest : List Char} :
    after? beginning cs = some rest ↔ cs = beginning ++ rest := by
  induction beginning generalizing cs with
  | nil => simp [after?, eq_comm]
  | cons p ps ih =>
    cases cs with
    | nil => simp [after?]
    | cons c cs =>
      rw [after?, List.cons_append, List.cons.injEq]
      split
      · rename_i hp
        rw [ih]
        exact ⟨fun h => ⟨hp.symm, h⟩, And.right⟩
      · rename_i hp
        exact ⟨fun h => (by cases h), fun h => absurd h.1.symm hp⟩

/-- What stands behind the last separator is found in one way only. -/
theorem last_separator_unique {cs cs' ds ds' : List Char} (hd : sep ∉ ds) (hd' : sep ∉ ds')
    (h : cs ++ sep :: ds = cs' ++ sep :: ds') : cs = cs' ∧ ds = ds' := by
  have hrun : ∀ ds : List Char, sep ∉ ds → ∀ c ∈ ds.reverse, (c != sep) = true := by
    intro ds hd c hc
    refine bne_iff_ne.2 ?_
    rintro rfl
    exact hd (List.mem_reverse.1 hc)
  have hrest : ∀ (cs : List Char) c, (sep :: cs.reverse).head? = some c → (c != sep) = false := by
    rintro cs c ⟨⟩
    exact bne_self_eq_false sep
  have hreverse : ds.reverse ++ sep :: cs.reverse = ds'.reverse ++ sep :: cs'.reverse := by
    simpa using congrArg List.reverse h
  obtain ⟨hds, hcs⟩ :=
    run_append_cancel (hrun ds hd) (hrest cs) (hrun ds' hd') (hrest cs') hreverse
  exact ⟨List.reverse_injective (List.cons.inj hcs).2, List.reverse_injective hds⟩

/-- What begins a text and has no separator stands before each of its separators. -/
theorem prefix_before_separator {cs ds rest : List Char} (h : cs <+: ds ++ sep :: rest)
    (hcs : sep ∉ cs) : cs <+: ds := by
  by_cases hlength : cs.length ≤ ds.length
  · exact List.prefix_of_prefix_length_le h (List.prefix_append _ _) hlength
  · have hbegins : ds ++ [sep] <+: cs := by
      refine List.prefix_of_prefix_length_le ⟨rest, by simp⟩ h ?_
      rw [List.length_append, List.length_singleton]
      omega
    exact absurd (hbegins.subset (by simp)) hcs

/-- What begins a text stands before its last separator, or is cut by it in the same way. -/
theorem prefix_cases {cs rest ds rest' : List Char} (hrest : sep ∉ rest) (hrest' : sep ∉ rest')
    (h : cs ++ sep :: rest <+: ds ++ sep :: rest') :
    cs ++ sep :: rest <+: ds ∨ cs = ds ∧ rest <+: rest' := by
  by_cases hlength : (cs ++ sep :: rest).length ≤ ds.length
  · exact .inl (List.prefix_of_prefix_length_le h (List.prefix_append _ _) hlength)
  · right
    obtain ⟨tail, htail⟩ : ds ++ [sep] <+: cs ++ sep :: rest := by
      refine List.prefix_of_prefix_length_le ⟨rest', by simp⟩ h ?_
      rw [List.length_append, List.length_singleton]
      omega
    rw [List.append_assoc, List.singleton_append] at htail
    rw [← htail] at h
    have hbegins : tail <+: rest' :=
      (List.cons_prefix_cons.1 ((List.prefix_append_right_inj ds).1 h)).2
    obtain ⟨hds, heq⟩ :=
      last_separator_unique (fun hmem => hrest' (hbegins.subset hmem)) hrest htail
    exact ⟨hds.symm, heq ▸ hbegins⟩

end ScimBridge
