import ScimBridge.Gateway.Access
import ScimBridge.Proofs.Service.Requests
import ScimBridge.Proofs.Text.Trim

/-!
# Bearer tokens

The token of a caller is what stands behind the scheme in the authorization header, trimmed
(`bearerToken_eq_ok_iff`). Everything that the service asks the backend with a token bears this
token and no other one (`ensures_answer`).
-/

namespace ScimBridge

namespace Gateway

open Backend

/-! ## The token of a header -/

/-- A header that bears a token: it has the bearer scheme, in any case, and behind the blank that
follows it stands the token, perhaps with blanks around it. -/
def Bears (header t : String) : Prop :=
  ∃ scheme rest : List Char, header.toList = scheme ++ ' ' :: rest ∧ ' ' ∉ scheme ∧
    lowerText scheme = "bearer".toList ∧ t = trimText (String.ofList rest) ∧ t ≠ ""

theorem around_run {c : Char} {front : List Char} (rest : List Char) (hfront : c ∉ front)
    (hrest : ∀ d, rest.head? = some d → d = c) :
    Uri.around c (front ++ rest) = (front, rest.drop 1) := by
  have hrun : ∀ d ∈ front, (!([c] : List Char).contains d) = true := fun d hd => by
    have hne : d ≠ c := fun heq => hfront (heq ▸ hd)
    simpa using hne
  have hstop : ∀ d, rest.head? = some d → (!([c] : List Char).contains d) = false := fun d hd => by
    simpa using hrest d hd
  simp only [Uri.around, Uri.before, takeWhile_run hrun hstop, dropWhile_run hrun hstop]

/-- Scheme and token of a header with a blank. -/
theorem authorization_of_blank {header : String} {scheme rest : List Char}
    (h : header.toList = scheme ++ ' ' :: rest) (hscheme : ' ' ∉ scheme) :
    authorization header = (String.ofList (lowerText scheme), trimText (String.ofList rest)) := by
  have haround := around_run (' ' :: rest) hscheme (by simp)
  simp only [authorization, h, haround, List.drop_succ_cons, List.drop_zero]

/-- A header without a blank has no token. -/
theorem authorization_of_no_blank {header : String} (h : ' ' ∉ header.toList) :
    (authorization header).2 = "" := by
  have haround := around_run [] h (by simp)
  rw [List.append_nil] at haround
  simp only [authorization, haround, List.drop_nil]
  decide

theorem bearerToken_eq_ok {header t : String} :
    bearerToken header = .ok t ↔ header ≠ "" ∧ (authorization header).1 = "bearer" ∧
      (authorization header).2 = t ∧ t ≠ "" := by
  unfold bearerToken
  by_cases hempty : header = ""
  · simp [hempty]
  · by_cases hscheme : (authorization header).1 = "bearer"
    · by_cases htoken : (authorization header).2 = ""
      · simp only [hempty, hscheme, htoken, ne_eq, not_true_eq_false, if_false, if_true]
        constructor
        · exact fun h => nomatch h
        · rintro ⟨-, -, rfl, hne⟩
          exact (hne rfl).elim
      · simp only [hempty, hscheme, htoken, ne_eq, not_true_eq_false, if_false, Except.ok.injEq,
          not_false_eq_true, true_and]
        exact ⟨fun h => ⟨h, h ▸ htoken⟩, fun h => h.1⟩
    · simp [hempty, hscheme]

/-- The token of a header is the one that it bears. -/
theorem bearerToken_eq_ok_iff {header t : String} :
    bearerToken header = .ok t ↔ Bears header t := by
  rw [bearerToken_eq_ok]
  constructor
  · rintro ⟨-, hscheme, htoken, hne⟩
    by_cases hblank : ' ' ∈ header.toList
    · obtain ⟨scheme, rest, hheader, hfree⟩ := List.eq_append_cons_of_mem hblank
      rw [authorization_of_blank hheader hfree] at hscheme htoken
      exact ⟨scheme, rest, hheader, hfree, by simpa using congrArg String.toList hscheme,
        htoken.symm, hne⟩
    · exact (hne (htoken.symm.trans (authorization_of_no_blank hblank))).elim
  · rintro ⟨scheme, rest, hheader, hfree, hscheme, htoken, hne⟩
    rw [authorization_of_blank hheader hfree]
    refine ⟨?_, ?_, htoken.symm, hne⟩
    · rintro rfl
      simp at hheader
    · dsimp only
      rw [hscheme, String.ofList_toList]

/-- Whoever is refused for a header is told so. -/
theorem bearerToken_error {header : String} {fault : Fault}
    (h : bearerToken header = .error fault) : ∃ detail, fault = callerRefusal detail := by
  unfold bearerToken at h
  split at h
  · exact ⟨_, (Except.error.inj h).symm⟩
  · dsimp only at h
    split at h
    · exact ⟨_, (Except.error.inj h).symm⟩
    · split at h
      · exact ⟨_, (Except.error.inj h).symm⟩
      · cases h

/-! ## The token of a request to the backend -/

/-- The headers of a request that authorize it; names of headers are compared as servers do. -/
def authorizationsOf (r : Request) : Fields Value :=
  (r.headers.getD []).filter fun p => Http.headerKey p.1 == Http.headerKey "Authorization"

/-- A request that is authorized by a token and by nothing else. -/
def BearsToken (t : String) (r : Request) : Prop :=
  authorizationsOf r = [("Authorization", .string ("Bearer " ++ t))]

section

variable {t : String} {c : Client}

/-- A revision beside the token does not authorize anything. -/
theorem bearsToken_bearing {method path : String} {content : Content}
    (h : content.headers = [] ∨ ∃ tag, content.headers = Objects.revisionHeader tag) :
    BearsToken t (bearing c method path content (.string t)) := by
  have hversion : (Http.headerKey "Accept-API-Version" == Http.headerKey "Authorization") = false :=
    by decide
  have haccept : (Http.headerKey "Accept" == Http.headerKey "Authorization") = false := by decide
  have hrevision : (Http.headerKey "If-Match" == Http.headerKey "Authorization") = false := by
    decide
  have hplain : bearerHeaders (.string t) [] =
      [("Authorization", .string ("Bearer " ++ t)), ("Accept-API-Version", .string apiVersion),
       ("Accept", .string "application/json")] := rfl
  have hrevised : ∀ tag, bearerHeaders (.string t) (Objects.revisionHeader tag) =
      ("If-Match", tag) :: bearerHeaders (.string t) [] := fun _ => rfl
  rcases h with h | ⟨tag, h⟩ <;>
    simp [BearsToken, authorizationsOf, bearing, h, hrevised, hplain, hversion, haccept, hrevision]

theorem optionalRevision_cases (revision : Option Value) :
    Objects.optionalRevision revision = [] ∨
      ∃ tag, Objects.optionalRevision revision = Objects.revisionHeader tag := by
  unfold Objects.optionalRevision
  cases revision.filter Value.filled with
  | none => exact .inl rfl
  | some tag => exact .inr ⟨tag, rfl⟩

open Service

/-- The requests that a call stands for bear the caller's token. -/
theorem bearsToken_of_sends {s : Setup} {kind : Kind} {script : List Answer} {call : Call}
    {sent : List Request} (h : s.Sends kind c t script call sent) : ∀ r ∈ sent, BearsToken t r := by
  have hplain : ∀ {method path : String} {params json : Option Value},
      BearsToken t (bearing c method path { params, json } (.string t)) :=
    bearsToken_bearing (.inl rfl)
  have hsingle : ∀ {r : Request}, BearsToken t r → ∀ r' ∈ [r], BearsToken t r' := by simp
  cases call with
  | list query =>
    obtain ⟨page, filter, -, -, hone, hboth⟩ := h
    by_cases hcount : page.count = 0 ∨ ¬Objects.GivesTotal (Exchange.firstAnswer script)
    · exact hone hcount ▸ hsingle hplain
    · obtain ⟨hcount, htotal⟩ := not_or.1 hcount
      rw [hboth hcount (not_not.1 htotal)]
      exact List.forall_mem_cons.2 ⟨hplain, hsingle hplain⟩
  | get id => exact h ▸ hsingle hplain
  | create resource =>
    obtain ⟨attributes, -, rfl⟩ := h
    exact hsingle hplain
  | replace id resource revision =>
    obtain ⟨attributes, request, tag, -, rfl, -, -, -, rfl⟩ := h
    exact hsingle (bearsToken_bearing (.inr ⟨_, rfl⟩))
  | patch id request revision =>
    obtain ⟨converted, -, hnone, hsome⟩ := h
    by_cases hempty : converted.flatten = []
    · exact hnone hempty ▸ hsingle hplain
    · exact hsome hempty ▸ hsingle (bearsToken_bearing (optionalRevision_cases revision))
  | delete id revision => exact h ▸ hsingle (bearsToken_bearing (optionalRevision_cases revision))
  | translate filter => exact h ▸ fun r hr => nomatch hr

/-- A call with the caller's token sends this token only and leaves the client as it is. -/
theorem ensures_answer (ht : t ≠ "") (s : Setup) (kind : Kind) (baseUrl : String) (call : Call)
    (c : Client) :
    (startedIn (s.answer kind ⟨some t, baseUrl⟩ call) c).Ensures (BearsToken t)
      fun p => p.2 = c := by
  refine Exchange.ensures_of_play fun script => ?_
  by_cases hrefuses : s.Refuses kind call
  · obtain ⟨e, he⟩ := startedIn_answer_of_refuses hrefuses ⟨some t, baseUrl⟩ c
    rw [he]
    exact ⟨fun r hr => (List.not_mem_nil hr).elim, rfl⟩
  · obtain ⟨hclient, hsends⟩ := sends_of_not_refuses ht baseUrl c hrefuses script
    exact ⟨bearsToken_of_sends hsends, hclient⟩

end

end Gateway

end ScimBridge
