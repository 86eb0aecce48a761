import Mathlib.Data.List.Nodup
import ScimBridge.Json.Reader
import ScimBridge.Proofs.Json.Fields
import ScimBridge.Proofs.Outcomes

/-!
# Names in documents that are read

No name occurs twice in an object of a document that is read (`isOrderly_ofDocument`), however often
the text repeats it: a member is stored under its name, and so replaces one that is there.

1. `IsOrderly` is what holds of a value and of all that is inside it.
2. `orderly_scanStep`, `Orderly.step?`: tokens stand for plain values, and each token keeps what is
   open orderly.
-/

namespace ScimBridge

/-- Storing repeats no name. -/
theorem Fields.nodup_put {α : Type} {fs : Fields α} (h : fs.keys.Nodup) (name : String) (v : α) :
    (fs.put name v).keys.Nodup := by
  induction fs with
  | nil => exact List.nodup_singleton name
  | cons p rest ih =>
    obtain ⟨k, w⟩ := p
    obtain ⟨hk, hrest⟩ := List.nodup_cons.1 h
    rw [Fields.put]
    split
    · exact h
    · rename_i hne
      refine List.nodup_cons.2 ⟨fun hmem => ?_, ih hrest⟩
      rcases (mem_keys_put rest name k v).1 hmem with heq | hmem
      · exact hne (beq_iff_eq.2 heq.symm)
      · exact hk hmem

/-! ## Orderly values -/

namespace Value

/-- A value in whose objects, however deep, no name occurs twice. -/
inductive IsOrderly : Value → Prop
  | null : IsOrderly .null
  | bool (b : Bool) : IsOrderly (.bool b)
  | int (n : Int) : IsOrderly (.int n)
  | double (x : Double) : IsOrderly (.double x)
  | string (s : String) : IsOrderly (.string s)
  | array {items : List Value} (h : ∀ v ∈ items, IsOrderly v) : IsOrderly (.array items)
  | object {members : Fields Value} (hnames : members.keys.Nodup)
      (h : ∀ p ∈ members, IsOrderly p.2) : IsOrderly (.object members)

end Value

namespace Document

/-- A token that stands for an orderly value if it stands for one. -/
def IsPlainToken (t : Token) : Prop := ∀ v, t = .value v → v.IsOrderly

/-! ## Tokens -/

theorem isOrderly_readNumber? {negative : Bool} {cs : List Char} {v : Value}
    (h : readNumber? negative cs = some v) : v.IsOrderly := by
  unfold readNumber? at h
  dsimp only at h
  split at h
  · cases h
  · split at h
    · cases h
    · split at h
      · split at h
        · split at h
          · cases h
          · cases h
            exact .int _
        · cases h
          exact .double _
      · cases h

theorem isOrderly_bareValue? {cs : List Char} {v : Value} (h : bareValue? cs = some v) :
    v.IsOrderly := by
  unfold bareValue? at h
  split at h
  · cases h; exact .null
  · cases h; exact .bool true
  · cases h; exact .bool false
  · cases h; exact .double _
  · cases h; exact .double _
  · cases h; exact .double _
  · split at h <;> exact isOrderly_readNumber? h

/-- Tokens that are plain, where the pass goes on and where it cannot. -/
def Sifted {α : Type} (tokensOf : α → List Token) : Except (List Token) α → Prop
  | .ok a => ∀ t ∈ tokensOf a, IsPlainToken t
  | .error tokens => ∀ t ∈ tokens, IsPlainToken t

theorem plain_scanPlain {c : Char} {tokens : List Token} (h : ∀ t ∈ tokens, IsPlainToken t) :
    ∀ t ∈ (scanPlain c).2.toList ++ tokens, IsPlainToken t := by
  have hnew : ∀ t ∈ (scanPlain c).2, IsPlainToken t := by
    unfold scanPlain
    split <;> rintro t ⟨⟩ v ⟨⟩
  intro t ht
  rcases List.mem_append.1 ht with ht | ht
  · exact hnew t (Option.mem_toList.1 ht)
  · exact h t ht

theorem plain_cons_string {s : String} {tokens : List Token} (h : ∀ t ∈ tokens, IsPlainToken t) :
    ∀ t ∈ Token.string s :: tokens, IsPlainToken t := by
  intro t ht
  rcases List.mem_cons.1 ht with rfl | ht
  · rintro v ⟨⟩
  · exact h t ht

theorem sifted_endWord {word : List Char} {tokens : List Token}
    (h : ∀ t ∈ tokens, IsPlainToken t) : Sifted id (endWord word tokens) := by
  unfold endWord
  split
  · rename_i v hv
    intro t ht
    rcases List.mem_cons.1 ht with rfl | ht
    · rintro w ⟨⟩
      exact isOrderly_bareValue? hv
    · exact h t ht
  · exact h

theorem sifted_scanStep {state : Scan × List Token} (h : ∀ t ∈ state.2, IsPlainToken t) (c : Char) :
    Sifted Prod.snd (scanStep state c) := by
  obtain ⟨scan, tokens⟩ := state
  cases scan with
  | between => exact plain_scanPlain h
  | bare word =>
    simp only [scanStep]
    split
    · have hword : Sifted id (endWord word tokens) := sifted_endWord h
      cases hend : endWord word tokens with
      | ok tokens' =>
        rw [hend] at hword
        exact plain_scanPlain hword
      | error tokens' =>
        rw [hend] at hword
        exact hword
    · exact h
  | inString units =>
    simp only [scanStep]
    split
    · exact plain_cons_string h
    · split
      · exact h
      · split <;> exact h
  | escape units =>
    simp only [scanStep]
    split
    · exact h
    · split <;> exact h
  | unit units digits value =>
    simp only [scanStep]
    split
    · split <;> exact h
    · exact h

theorem sifted_foldlM (cs : List Char) {state : Scan × List Token}
    (h : ∀ t ∈ state.2, IsPlainToken t) : Sifted Prod.snd (cs.foldlM scanStep state) := by
  induction cs generalizing state with
  | nil => exact h
  | cons c cs ih =>
    have hstep := sifted_scanStep h c
    rw [List.foldlM_cons]
    cases hnext : scanStep state c with
    | ok next =>
      rw [hnext] at hstep
      exact ih hstep
    | error tokens =>
      rw [hnext] at hstep
      exact hstep

/-- The tokens of a text stand for orderly values. -/
theorem plain_tokens (cs : List Char) : ∀ t ∈ tokens cs, IsPlainToken t := by
  have hall : Sifted id (scanAll cs) := by
    have hnone : ∀ t ∈ (Scan.between, ([] : List Token)).2, IsPlainToken t := by simp
    have hfold := sifted_foldlM cs hnone
    unfold scanAll
    cases hscan : cs.foldlM scanStep (Scan.between, []) with
    | error tokens =>
      rw [hscan] at hfold
      exact hfold
    | ok state =>
      rw [hscan] at hfold
      obtain ⟨scan, tokens⟩ := state
      cases scan with
      | bare word => exact sifted_endWord hfold
      | _ => exact hfold
  intro t ht
  unfold tokens at ht
  cases hscan : scanAll cs with
  | ok tokens =>
    rw [hscan] at hall ht
    exact hall t (List.mem_reverse.1 ht)
  | error tokens =>
    rw [hscan] at hall ht
    rcases List.mem_cons.1 (List.mem_reverse.1 ht) with rfl | ht
    · rintro v ⟨⟩
    · exact hall t ht

/-! ## What is open -/

/-- A container that holds orderly values only. -/
def Frame.IsOrderly : Frame → Prop
  | .array items => ∀ v ∈ items, v.IsOrderly
  | .object members _ => members.keys.Nodup ∧ ∀ p ∈ members, p.2.IsOrderly

/-- What may come next holds orderly values only. -/
def Expected.IsOrderly : Expected → Prop
  | .value | .itemOrClose => True
  | .nameOrClose members | .name members | .colon members _ | .afterMember members =>
    members.keys.Nodup ∧ ∀ p ∈ members, p.2.IsOrderly
  | .afterItem items => ∀ v ∈ items, v.IsOrderly
  | .nothing v => v.IsOrderly

/-- Everything that is open, or complete, is orderly. -/
structure Reading.IsOrderly (r : Reading) : Prop where
  frames : ∀ f ∈ r.frames, f.IsOrderly
  expected : r.expected.IsOrderly

namespace Reading

variable {frames : List Frame} (hframes : ∀ f ∈ frames, f.IsOrderly)

include hframes

theorem isOrderly_close {v : Value} (hv : v.IsOrderly) : (close v frames).IsOrderly := by
  cases frames with
  | nil => exact ⟨hframes, hv⟩
  | cons f outer =>
    have hf := hframes f List.mem_cons_self
    have houter : ∀ f ∈ outer, f.IsOrderly := fun f hf => hframes f (List.mem_cons_of_mem _ hf)
    cases f with
    | array items =>
      refine ⟨houter, fun w hw => ?_⟩
      rcases List.mem_cons.1 hw with rfl | hw
      · exact hv
      · exact hf w hw
    | object members name =>
      refine ⟨houter, Fields.nodup_put hf.1 name v, fun p hp => ?_⟩
      rcases Fields.mem_put hp with heq | hp
      · rw [heq]
        exact hv
      · exact hf.2 p hp

theorem isOrderly_begin {t : Token} (ht : IsPlainToken t) {r : Reading}
    (h : begin frames t = some r) : r.IsOrderly := by
  cases t with
  | value v =>
    cases h
    exact isOrderly_close hframes (ht v rfl)
  | string s =>
    cases h
    exact isOrderly_close hframes (.string s)
  | openArray =>
    cases h
    exact ⟨hframes, trivial⟩
  | openObject =>
    cases h
    exact ⟨hframes, List.nodup_nil, by simp⟩
  | _ => cases h

omit hframes

theorem isOrderly_cons {f : Frame} (hf : f.IsOrderly) (hframes : ∀ f ∈ frames, f.IsOrderly) :
    ∀ g ∈ f :: frames, g.IsOrderly := by
  intro g hg
  rcases List.mem_cons.1 hg with rfl | hg
  · exact hf
  · exact hframes g hg

/-- A token keeps what is open orderly. -/
theorem IsOrderly.step? {r r' : Reading} (hr : r.IsOrderly) {t : Token} (ht : IsPlainToken t)
    (h : r.step? t = some r') : r'.IsOrderly := by
  obtain ⟨frames, expected⟩ := r
  obtain ⟨hframes, hexpected⟩ := hr
  cases expected with
  | value => exact isOrderly_begin hframes ht h
  | itemOrClose =>
    have hopen : Frame.IsOrderly (.array []) := by simp [Frame.IsOrderly]
    cases t
    case closeArray =>
      cases h
      exact isOrderly_close hframes (.array (by simp))
    all_goals exact isOrderly_begin (isOrderly_cons hopen hframes) ht h
  | nameOrClose members =>
    cases t <;> cases h
    · exact isOrderly_close hframes (.object hexpected.1 hexpected.2)
    · exact ⟨hframes, hexpected⟩
  | name members =>
    cases t <;> cases h
    exact ⟨hframes, hexpected⟩
  | colon members name =>
    cases t <;> cases h
    exact ⟨isOrderly_cons hexpected hframes, trivial⟩
  | afterItem items =>
    cases t <;> cases h
    · exact isOrderly_close hframes (.array fun v hv => hexpected v (List.mem_reverse.1 hv))
    · exact ⟨isOrderly_cons hexpected hframes, trivial⟩
  | afterMember members =>
    cases t <;> cases h
    · exact isOrderly_close hframes (.object hexpected.1 hexpected.2)
    · exact ⟨hframes, hexpected⟩
  | nothing v => cases t <;> cases h

theorem isOrderly_foldlM {tokens : List Token} (ht : ∀ t ∈ tokens, IsPlainToken t)
    {r r' : Reading} (hr : r.IsOrderly) (h : tokens.foldlM step r = .ok r') : r'.IsOrderly := by
  induction tokens generalizing r with
  | nil =>
    cases h
    exact hr
  | cons t tokens ih =>
    rw [List.foldlM_cons] at h
    obtain ⟨next, hstep, hrest⟩ := bind_eq_ok_iff.1 h
    refine ih (fun u hu => ht u (List.mem_cons_of_mem _ hu)) ?_ hrest
    unfold step at hstep
    split at hstep
    · cases hstep
    · rename_i hnext
      split at hstep <;> cases hstep
      exact hr.step? (ht t List.mem_cons_self) hnext

end Reading

end Document

/-- No name occurs twice in an object of a document that is read. -/
theorem isOrderly_ofDocument {text : String} {v : Value} (h : Value.ofDocument text = .ok v) :
    v.IsOrderly := by
  unfold Value.ofDocument Document.ofTokens at h
  obtain ⟨r, hr, h⟩ := bind_eq_ok_iff.1 h
  have hbegin : Document.Reading.IsOrderly ⟨[], .value⟩ := ⟨by simp, trivial⟩
  have horderly : r.IsOrderly :=
    Document.Reading.isOrderly_foldlM (Document.plain_tokens _) hbegin hr
  have hexpected := horderly.expected
  split at h
  · rename_i w hw
    cases h
    rw [hw] at hexpected
    exact hexpected
  · cases h

/-- A member of an orderly value is orderly. -/
theorem Value.IsOrderly.get? {v w : Value} (h : v.IsOrderly) {name : String}
    (hw : v.get? name = some w) : w.IsOrderly := by
  cases h with
  | object hnames hmembers => exact hmembers _ (Fields.mem_of_get? hw)
  | _ => cases hw

/-- The members of an orderly value have different names. -/
theorem Value.IsOrderly.nodup_members {v : Value} (h : v.IsOrderly) {members : Fields Value}
    (hmembers : v.members? = some members) : members.keys.Nodup := by
  cases h with
  | object hnames _ =>
    cases hmembers
    exact hnames
  | _ => cases hmembers

end ScimBridge
