import ScimBridge.Patch.Converter
import ScimBridge.Proofs.Outcomes

/-!
# Entries of a patch request

A patch request is converted as a whole or not at all: it is converted iff each of its entries is,
into the operations of all entries one after the other (`convert_eq_ok_iff`), and one entry that
cannot be converted, wherever it stands, stops the request (`convert_fails_iff`).
-/

namespace ScimBridge

namespace Patch

namespace Converter

variable (c : Converter) (request : Value)

/-- The operations that the entries of a request become, one entry after the other. -/
def Converts (converted : List (List Operation)) : Prop :=
  ∃ entries, entriesOf request = .ok entries ∧
    List.Forall₂ (fun entry operations => c.entryOperations entry = .ok operations)
      entries converted

/-- A request that has no entries, or one that cannot be converted among them. -/
def Stops : Prop :=
  (∃ fault, entriesOf request = .error fault) ∨
    ∃ entries, entriesOf request = .ok entries ∧
      ∃ entry ∈ entries, ∃ fault, c.entryOperations entry = .error fault

variable {c request}

theorem convert_eq_ok_iff {operations : List Operation} :
    c.convert request = .ok operations ↔
      ∃ converted, c.Converts request converted ∧ operations = converted.flatten := by
  unfold convert Converts
  simp only [bind_eq_ok_iff, mapM_eq_ok_iff, pure, Except.pure, Except.ok.injEq]
  constructor
  · rintro ⟨entries, hentries, converted, hconverted, rfl⟩
    exact ⟨converted, ⟨entries, hentries, hconverted⟩, rfl⟩
  · rintro ⟨converted, ⟨entries, hentries, hconverted⟩, rfl⟩
    exact ⟨entries, hentries, converted, hconverted, rfl⟩

/-- Operations of a request are those of one of its entries. -/
theorem Converts.exists_entry {converted : List (List Operation)}
    (h : c.Converts request converted) {operations : List Operation}
    (hmem : operations ∈ converted) :
    ∃ entries, entriesOf request = .ok entries ∧
      ∃ entry ∈ entries, c.entryOperations entry = .ok operations := by
  obtain ⟨entries, hentries, hconverted⟩ := h
  refine ⟨entries, hentries, ?_⟩
  clear hentries
  induction hconverted with
  | nil => cases hmem
  | cons hentry _ ih =>
    rcases List.mem_cons.1 hmem with rfl | hmem
    · exact ⟨_, List.mem_cons_self, hentry⟩
    · obtain ⟨entry, hin, hoperations⟩ := ih hmem
      exact ⟨entry, List.mem_cons_of_mem _ hin, hoperations⟩

theorem convert_fails_iff : (∃ fault, c.convert request = .error fault) ↔ c.Stops request := by
  unfold convert Stops
  cases hentries : entriesOf request with
  | error fault => simp [bind, Except.bind]
  | ok entries =>
    simp only [bind, Except.bind, Except.ok.injEq, exists_eq_left', reduceCtorEq,
      ← mapM_fails_iff]
    cases entries.mapM c.entryOperations <;> simp [pure, Except.pure]

end Converter

end Patch

end ScimBridge
