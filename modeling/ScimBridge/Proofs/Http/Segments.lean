import ScimBridge.Text.Percent
import Mathlib.Data.List.Infix

/-!
# Path segments

A segment of a path stands for a name: behind percent signs with two digits stand bytes, and all
other characters stand for themselves. It stands for one name at most (`SegmentOf.unique`), every
name but the empty one and the two steps has a segment (`exists_segmentOf`), and a name is a segment
for itself iff it is plain (`segmentOf_self_iff`).
-/

namespace ScimBridge

namespace Percent

/-! ## Texts behind percent signs -/

/-- The bytes of a text. A half of a surrogate pair counts with the characters that spell it, so that
different texts have different bytes. -/
def utf8 (cs : List Char) : List UInt8 := cs.flatMap String.utf8EncodeChar

theorem utf8_injective : Function.Injective utf8 := by
  intro cs ds h
  have hencode : cs.utf8Encode = ds.utf8Encode := congrArg List.toByteArray h
  apply String.ofList_injective
  apply String.toByteArray_inj.1
  rw [String.toByteArray_ofList, String.toByteArray_ofList, hencode]

theorem length_utf8_cons (c : Char) (cs : List Char) :
    (utf8 (c :: cs)).length = c.utf8Size + (utf8 cs).length := by
  rw [utf8, List.flatMap_cons, List.length_append, String.length_utf8EncodeChar]
  rfl

/-- Whether a character is a digit behind a percent sign. -/
def IsDigit (c : Char) : Prop := (Document.hexValue? c).isSome

/-- Somewhere in a text stands a percent sign with two digits behind it. -/
def HasEscape (cs : List Char) : Prop := ∃ a b, ['%', a, b] <:+: cs ∧ IsDigit a ∧ IsDigit b

/-- A character that is no percent sign with two digits behind it. -/
def StandsAlone (c : Char) (behind : List Char) : Prop :=
  ∀ a b rest, c = '%' → behind = a :: b :: rest → ¬(IsDigit a ∧ IsDigit b)

theorem standsAlone_of_ne {c : Char} (h : c ≠ '%') (behind : List Char) : StandsAlone c behind :=
  fun _ _ _ hc => absurd hc h

section

variable {c : Char} {behind : List Char} (h : StandsAlone c behind)

include h

theorem readBytes_cons : readBytes (c :: behind) =
    String.utf8EncodeChar c ++ readBytes behind := by
  rw [readBytes.eq_def (c :: behind)]
  split
  · rename_i a b rest heq
    obtain ⟨rfl, rfl⟩ := List.cons.inj heq
    split
    · rename_i hi lo hhi hlo
      refine (h a b rest rfl rfl ⟨?_, ?_⟩).elim
      · exact Option.isSome_of_eq_some hhi
      · exact Option.isSome_of_eq_some hlo
    · rfl
  · rename_i heq
    obtain ⟨rfl, rfl⟩ := List.cons.inj heq
    rfl
  · contradiction

theorem hasEscape_cons_iff : HasEscape (c :: behind) ↔ HasEscape behind := by
  constructor
  · rintro ⟨a, b, hwithin, ha, hb⟩
    rcases List.infix_cons_iff.1 hwithin with ⟨rest, hrest⟩ | hwithin
    · obtain ⟨rfl, rfl⟩ := List.cons.inj hrest
      exact (h a b rest rfl rfl ⟨ha, hb⟩).elim
    · exact ⟨a, b, hwithin, ha, hb⟩
  · rintro ⟨a, b, hwithin, ha, hb⟩
    exact ⟨a, b, List.infix_cons hwithin, ha, hb⟩

end

/-- A text from the left: it is empty, or it begins with a percent sign and two digits, or with a
character that stands alone. -/
theorem escapeRec {motive : List Char → Prop} (nil : motive [])
    (escape : ∀ a b rest, IsDigit a → IsDigit b → motive rest → motive ('%' :: a :: b :: rest))
    (char : ∀ c rest, StandsAlone c rest → motive rest → motive (c :: rest))
    (cs : List Char) : motive cs := by
  induction cs using readBytes.induct with
  | case1 a b rest hi lo hb ha ih =>
    exact escape a b rest (Option.isSome_of_eq_some ha) (Option.isSome_of_eq_some hb) ih
  | case2 a b rest hdigits ih =>
    refine char '%' _ ?_ ih
    rintro a b rest - ⟨⟩ ⟨ha, hb⟩
    obtain ⟨hi, hhi⟩ := Option.isSome_iff_exists.1 ha
    obtain ⟨lo, hlo⟩ := Option.isSome_iff_exists.1 hb
    exact hdigits hi lo hhi hlo
  | case3 c rest hc ih => exact char c rest (fun a b rest hp hrest => (hc a b rest hp hrest).elim) ih
  | case4 => exact nil

theorem length_readBytes_escape {a b : Char} (ha : IsDigit a) (hb : IsDigit b) (rest : List Char) :
    (readBytes ('%' :: a :: b :: rest)).length = (readBytes rest).length + 1 := by
  obtain ⟨hi, hhi⟩ := Option.isSome_iff_exists.1 ha
  obtain ⟨lo, hlo⟩ := Option.isSome_iff_exists.1 hb
  simp only [readBytes, hhi, hlo, List.length_cons]

/-- Behind percent signs stands no more than is written. -/
theorem length_readBytes_le (cs : List Char) : (readBytes cs).length ≤ (utf8 cs).length := by
  induction cs using escapeRec with
  | nil => rfl
  | escape a b rest ha hb ih =>
    have hsize := a.utf8Size_pos
    rw [length_readBytes_escape ha hb, length_utf8_cons, length_utf8_cons, length_utf8_cons]
    omega
  | char c rest hc ih =>
    rw [readBytes_cons hc, List.length_append, String.length_utf8EncodeChar, length_utf8_cons]
    omega

/-- A text stands for itself iff no percent sign with two digits is in it. -/
theorem readBytes_eq_utf8_iff (cs : List Char) : readBytes cs = utf8 cs ↔ ¬HasEscape cs := by
  induction cs using escapeRec with
  | nil =>
    have hnone : ¬HasEscape [] := by
      rintro ⟨a, b, hwithin, -, -⟩
      exact absurd (List.infix_nil.1 hwithin) (List.cons_ne_nil _ _)
    exact iff_of_true rfl hnone
  | escape a b rest ha hb ih =>
    have hescape : HasEscape ('%' :: a :: b :: rest) :=
      ⟨a, b, (List.prefix_append ['%', a, b] rest).isInfix, ha, hb⟩
    -- three characters are written for one byte
    have hlonger : readBytes ('%' :: a :: b :: rest) ≠ utf8 ('%' :: a :: b :: rest) := by
      intro heq
      have hlength := congrArg List.length heq
      have hle := length_readBytes_le rest
      have hsize := a.utf8Size_pos
      have hsize' := b.utf8Size_pos
      rw [length_readBytes_escape ha hb, length_utf8_cons, length_utf8_cons,
        length_utf8_cons] at hlength
      have hpercent : Char.utf8Size '%' = 1 := rfl
      omega
    exact iff_of_false hlonger (not_not_intro hescape)
  | char c rest hc ih =>
    rw [hasEscape_cons_iff hc, ← ih, readBytes_cons hc]
    exact List.append_right_inj _

/-! ## Names behind percent signs -/

theorem readBytes_keeping_append (bytes : List UInt8) (rest : List Char) :
    readBytes (keeping bytes ++ rest) = bytes ++ readBytes rest := by
  induction bytes with
  | nil => rfl
  | cons b bytes ih =>
    have h : keeping (b :: bytes) = byteText b ++ keeping bytes := by simp [keeping]
    rw [h, List.append_assoc, readBytes_byteText, ih, List.cons_append]

/-- A character as it may stand in a segment. -/
def written (c : Char) : List Char :=
  if isPlain c then [c] else keeping (String.utf8EncodeChar c)

theorem readBytes_written_append (c : Char) (rest : List Char) :
    readBytes (written c ++ rest) = String.utf8EncodeChar c ++ readBytes rest := by
  unfold written
  split
  case isTrue hplain =>
    have hne : c ≠ '%' := by
      rintro rfl
      exact absurd hplain (by decide)
    exact readBytes_cons (standsAlone_of_ne hne rest)
  case isFalse => exact readBytes_keeping_append _ rest

theorem readBytes_written (cs : List Char) : readBytes (cs.flatMap written) = utf8 cs := by
  induction cs with
  | nil => rfl
  | cons c cs ih =>
    rw [List.flatMap_cons, readBytes_written_append, ih]
    rfl

end Percent

namespace Uri

/-- The characters that end a segment of a path. -/
def segmentEnds : List Char := ['/', '?', '#']

theorem forall_segmentEnds {P : Char → Prop} : (∀ c ∈ segmentEnds, P c) ↔ P '/' ∧ P '?' ∧ P '#' := by
  simp [segmentEnds]

/-- The segments that are steps in a path: to stay, and to go back. -/
def steps : List String := [".", ".."]

/-- A segment of a path that stands for a name: there is one, it goes on to the end of the address,
it is no step, and the bytes of the name stand in it. -/
structure SegmentOf (segment name : String) : Prop where
  filled : segment ≠ ""
  whole : ∀ c ∈ segmentEnds, c ∉ segment.toList
  stays : segment ∉ steps
  reads : Percent.readBytes segment.toList = Percent.utf8 name.toList

/-- A segment stands for one name at most. -/
theorem SegmentOf.unique {segment name other : String} (h : SegmentOf segment name)
    (hother : SegmentOf segment other) : name = other := by
  apply String.toList_injective
  apply Percent.utf8_injective
  exact h.reads.symm.trans hother.reads

/-- A name that may be a segment as it is. -/
structure IsPlainName (name : String) : Prop where
  filled : name ≠ ""
  whole : ∀ c ∈ segmentEnds, c ∉ name.toList
  stays : name ∉ steps
  unescaped : ¬Percent.HasEscape name.toList

theorem segmentOf_self_iff {name : String} : SegmentOf name name ↔ IsPlainName name := by
  constructor
  · exact fun h => ⟨h.filled, h.whole, h.stays, (Percent.readBytes_eq_utf8_iff _).1 h.reads⟩
  · exact fun h => ⟨h.filled, h.whole, h.stays, (Percent.readBytes_eq_utf8_iff _).2 h.unescaped⟩

/-! ## Every name has a segment -/

theorem not_mem_byteText {c : Char} (hc : c ∈ segmentEnds) (b : UInt8) :
    c ∉ Percent.byteText b := by
  have hdigit : ∀ n < 16, (Nat.digitChar n).toUpper ∉ segmentEnds := by decide
  have hb : b.toNat < 256 := UInt8.toNat_lt b
  intro hmem
  rcases List.mem_cons.1 hmem with rfl | hmem
  · exact absurd hc (by decide)
  rcases List.mem_cons.1 hmem with rfl | hmem
  · exact hdigit _ (by omega) hc
  · obtain rfl := List.mem_singleton.1 hmem
    exact hdigit _ (by omega) hc

theorem not_mem_written {c : Char} (hc : c ∈ segmentEnds) (d : Char) : c ∉ Percent.written d := by
  have hplain : ∀ e ∈ segmentEnds, Percent.isPlain e = false :=
    forall_segmentEnds.2 ⟨by decide, by decide, by decide⟩
  unfold Percent.written
  split
  case isTrue hd =>
    intro hmem
    obtain rfl := List.mem_singleton.1 hmem
    rw [hplain c hc] at hd
    exact Bool.false_ne_true hd
  case isFalse =>
    intro hmem
    obtain ⟨b, -, hb⟩ := List.mem_flatMap.1 hmem
    exact not_mem_byteText hc b hb

/-- A text that stands for itself stands for no other name. -/
theorem name_of_written {name segment : String} (hsegment : ¬Percent.HasEscape segment.toList)
    (h : name.toList.flatMap Percent.written = segment.toList) : name = segment := by
  apply String.toList_injective
  apply Percent.utf8_injective
  calc Percent.utf8 name.toList
      = Percent.readBytes (name.toList.flatMap Percent.written) :=
        (Percent.readBytes_written _).symm
    _ = Percent.readBytes segment.toList := by rw [h]
    _ = Percent.utf8 segment.toList := (Percent.readBytes_eq_utf8_iff _).2 hsegment

theorem not_hasEscape_of_forall_ne {cs : List Char} (h : '%' ∉ cs) : ¬Percent.HasEscape cs := by
  rintro ⟨a, b, hwithin, -, -⟩
  exact h (hwithin.subset (by simp))

/-- Every name but the empty one and the steps has a segment. -/
theorem exists_segmentOf {name : String} (hfilled : name ≠ "") (hstays : name ∉ steps) :
    ∃ segment, SegmentOf segment name := by
  have hlist : (String.ofList (name.toList.flatMap Percent.written)).toList =
      name.toList.flatMap Percent.written := String.toList_ofList
  -- what is written for a name is empty or a step only if the name is
  have hname : ∀ segment ∈ "" :: steps,
      String.ofList (name.toList.flatMap Percent.written) = segment → name = segment := by
    intro segment hsegment heq
    have hplain : ∀ segment ∈ "" :: steps, '%' ∉ segment.toList := by decide
    refine name_of_written (not_hasEscape_of_forall_ne (hplain segment hsegment)) ?_
    rw [← hlist, heq]
  refine ⟨String.ofList (name.toList.flatMap Percent.written), ?_, ?_, ?_, ?_⟩
  · exact fun heq => hfilled (hname "" List.mem_cons_self heq)
  · intro c hc hmem
    rw [hlist] at hmem
    obtain ⟨d, -, hd⟩ := List.mem_flatMap.1 hmem
    exact not_mem_written hc d hd
  · intro hmem
    exact hstays (hname _ (List.mem_cons_of_mem _ hmem) rfl ▸ hmem)
  · rw [hlist]
    exact Percent.readBytes_written _

end Uri

end ScimBridge
