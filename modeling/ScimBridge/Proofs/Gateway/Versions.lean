import ScimBridge.Gateway.Access
import ScimBridge.Proofs.Json.Fields
import ScimBridge.Proofs.Outcomes
import ScimBridge.Proofs.Resource.Drafts
import ScimBridge.Proofs.Text.Cut
import ScimBridge.Proofs.Text.Trim
import ScimBridge.Service.Resources

/-!
# Revisions on their way

A revision of the backend becomes the version of a resource (`version_of_resourceOf`). A client sends
it back in quotes, perhaps with the mark of a weak comparison, and what is read of such a header is
the revision again (`revisionOf_strongTag`, `revisionOf_weakTag`).
-/

namespace ScimBridge

namespace Gateway

/-! ## Headers -/

/-- A revision that can be quoted: it is not empty, and there is no quote in it. -/
structure Quotable (revision : String) : Prop where
  ne_empty : revision ≠ ""
  unquoted : '"' ∉ revision.toList

/-- A revision in quotes. -/
def strongTag (revision : String) : String := "\"" ++ revision ++ "\""

/-- A revision in quotes with the mark of a weak comparison. -/
def weakTag (revision : String) : String := "W/" ++ strongTag revision

theorem toList_strongTag (revision : String) :
    (strongTag revision).toList = '"' :: revision.toList ++ ['"'] := by
  simp [strongTag]

theorem toList_weakTag (revision : String) :
    (weakTag revision).toList = 'W' :: '/' :: '"' :: revision.toList ++ ['"'] := by
  simp [weakTag, toList_strongTag]

/-- Where a quote stands in front of what begins with none, it alone is cut off. -/
theorem dropWhile_quote {cs : List Char} (hcs : ∀ c, c ∈ cs.head? → c ≠ '"') :
    ('"' :: cs).dropWhile (· == '"') = cs := by
  have hrun : ∀ c ∈ ['"'], (c == '"') = true := by simp
  exact dropWhile_run hrun fun c hc => by simpa using hcs c hc

section

variable {revision : String} (h : Quotable revision)

include h

theorem Quotable.stripped_strongTag : stripped '"' (strongTag revision) = revision := by
  have hne : revision.toList ≠ [] := mt String.toList_eq_nil_iff.1 h.ne_empty
  have hfront : dropFront '"' (strongTag revision) = String.ofList (revision.toList ++ ['"']) := by
    unfold dropFront
    rw [toList_strongTag, List.cons_append]
    refine congrArg String.ofList (dropWhile_quote fun c hc => ?_)
    rw [List.head?_append_of_ne_nil _ hne] at hc
    rintro rfl
    exact h.unquoted (List.mem_of_mem_head? hc)
  have hend : (revision.toList ++ ['"']).reverse.dropWhile (· == '"') = revision.toList.reverse := by
    rw [List.reverse_append]
    refine dropWhile_quote fun c hc => ?_
    rintro rfl
    exact h.unquoted (List.mem_reverse.1 (List.mem_of_mem_head? hc))
  unfold stripped dropEnd
  rw [hfront, String.toList_ofList, hend, List.reverse_reverse, String.ofList_toList]

omit h in
theorem trimText_of_ends {s : String} {first : Char} {inner : List Char}
    (hs : s.toList = first :: inner ++ ['"']) (hfirst : isBlank first = false) : trimText s = s := by
  have htrimmed : Trimmed s.toList := by
    rw [hs]
    refine ⟨fun c hc => ?_, fun c hc => ?_⟩
    · obtain rfl : first = c := by simpa using hc
      exact hfirst
    · rw [List.getLast?_append] at hc
      obtain rfl : '"' = c := by simpa using hc
      rfl
  rw [trimText, trim_of_trimmed htrimmed, String.ofList_toList]

theorem revisionOf_strongTag : revisionOf (strongTag revision) = some revision := by
  have hraw : trimText (strongTag revision) = strongTag revision :=
    trimText_of_ends (toList_strongTag revision) rfl
  have hmark : textAfter? "W/" (strongTag revision) = none := by
    unfold textAfter?
    rw [toList_strongTag]
    rfl
  unfold revisionOf
  simp only [hraw, hmark, Option.getD_none, h.stripped_strongTag, if_neg h.ne_empty]

theorem revisionOf_weakTag : revisionOf (weakTag revision) = some revision := by
  have hraw : trimText (weakTag revision) = weakTag revision :=
    trimText_of_ends (toList_weakTag revision) rfl
  have hmark : textAfter? "W/" (weakTag revision) = some (strongTag revision) := by
    have hafter : after? "W/".toList (weakTag revision).toList =
        some (strongTag revision).toList :=
      after?_eq_some_iff.2 (by rw [weakTag, String.toList_append])
    rw [textAfter?, hafter, Option.map_some, String.ofList_toList]
  unfold revisionOf
  simp only [hraw, hmark, Option.getD_some, h.stripped_strongTag, if_neg h.ne_empty]

end

/-! ## Resources -/

/-- The version of a resource. -/
def versionOf (resource : Value) : Option Value :=
  (resource.get? "meta").bind fun m => m.get? "version"

theorem get?_version_metadata (type location : String) (version : Option String)
    (stamps : Fields Value) :
    (Resource.metadata type location version stamps).get? "version" = version.map .string := by
  cases version with
  | some v => rfl
  | none =>
    have hstamps : Fields.get? (Resource.stampNames.filterMap fun name =>
        (Value.filled? stamps name).map fun v => (name, v)) "version" = none := by
      rw [Fields.get?_filterMap fun name => Value.filled? stamps name]
      rfl
    exact hstamps

section

variable {members resource : Fields Value} {baseUrl revision : String}
  (hrevision : members.get? "_rev" = some (.string revision))

include hrevision

theorem given?_revision : Value.given? members "_rev" = some (.string revision) := by
  rw [Value.given?, hrevision]

theorem get?_meta_user {c : MappingConfig} (h : User.ofBackend baseUrl c members = .ok resource) :
    ∃ location stamps, resource.get? "meta" =
      some (Resource.metadata "User" location (some revision) stamps) := by
  unfold User.ofBackend at h
  obtain ⟨finished, -, h⟩ := bind_eq_ok_iff.1 h
  obtain ⟨stamps, -, h⟩ := bind_eq_ok_iff.1 h
  cases h
  rw [Fields.get?_put_self, given?_revision hrevision]
  exact ⟨_, stamps, rfl⟩

theorem get?_meta_group (h : Group.ofBackend baseUrl members = .ok resource) :
    ∃ location stamps, resource.get? "meta" =
      some (Resource.metadata "Group" location (some revision) stamps) := by
  have hnamed : ∀ names : List (String × String), (∀ p ∈ names, p.2 ≠ "meta") →
      Fields.get? (names.filterMap fun p =>
        (Value.given? members p.1).map fun v => (p.2, v)) "meta" = none := by
    intro names hnames
    refine Fields.get?_eq_none_iff.2 fun hmem => ?_
    obtain ⟨p, hp, hname⟩ := List.mem_map.1 hmem
    obtain ⟨q, hq, hgiven⟩ := List.mem_filterMap.1 hp
    obtain ⟨v, -, rfl⟩ := Option.map_eq_some_iff.1 hgiven
    exact hnames q hq hname
  unfold Group.ofBackend at h
  obtain ⟨listed, -, h⟩ := bind_eq_ok_iff.1 h
  cases h
  have hlisted : Fields.get? (if listed.isEmpty then ([] : Fields Value)
      else [("members", .array listed)]) "meta" = none := by
    split <;> rfl
  rw [Fields.get?_append, Fields.get?_append, Fields.get?_append, hnamed _ (by decide), hlisted,
    given?_revision hrevision]
  exact ⟨_, _, rfl⟩

/-- The version of a resource is the revision of its backend object. -/
theorem version_of_resourceOf {s : Service.Setup} {kind : Service.Kind} {image : Value}
    (h : s.resourceOf kind baseUrl (.object members) = .ok image) :
    versionOf image = some (.string revision) := by
  have hmeta : ∃ (resource : Fields Value) (type location : String) (stamps : Fields Value),
      image = .object resource ∧
      resource.get? "meta" = some (Resource.metadata type location (some revision) stamps) := by
    unfold Service.Setup.resourceOf at h
    cases kind with
    | user =>
      dsimp only at h
      cases hresource : User.ofBackend baseUrl s.config members with
      | error fault => cases fault; rw [hresource] at h; cases h
      | ok resource =>
        rw [hresource] at h
        obtain ⟨location, stamps, hget⟩ := get?_meta_user hrevision hresource
        exact ⟨resource, _, location, stamps, (Except.ok.inj h).symm, hget⟩
    | group =>
      dsimp only at h
      cases hresource : Group.ofBackend baseUrl members with
      | error fault => cases fault; rw [hresource] at h; cases h
      | ok resource =>
        rw [hresource] at h
        obtain ⟨location, stamps, hget⟩ := get?_meta_group hrevision hresource
        exact ⟨resource, _, location, stamps, (Except.ok.inj h).symm, hget⟩
  obtain ⟨resource, type, location, stamps, rfl, hget⟩ := hmeta
  show (Fields.get? resource "meta").bind _ = _
  rw [hget, Option.bind_some, get?_version_metadata, Option.map_some]

end

end Gateway

end ScimBridge
