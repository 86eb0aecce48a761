import ScimBridge.Calendar.Moment
import ScimBridge.Decimal.Double
import ScimBridge.Json.Fields

/-!
# Document values

The values that resources, backend objects, mapping documents and settings are made of. Integers
and doubles are kept apart, and the members of an object keep their order.

Some documents may hold two kinds of values more: moments, and tables, which are objects in which
some name is no text. Where only names that are texts are looked for, a table is the object of its
entries under such names; what is written into it leaves its other entries alone.
-/

namespace ScimBridge

/-- Integers with more digits than this are neither read nor shown. -/
def maxIntegerDigits : Nat := 4300

/-- A document value. -/
inductive Value where
  | null
  | bool (b : Bool)
  | int (n : Int)
  | double (x : Double)
  | string (s : String)
  | array (items : List Value)
  | object (members : List (String × Value))
  | moment (m : Moment)
  | table (entries : List (Value × Value))

namespace Value

instance : Inhabited Value := ⟨.null⟩

/-- The whole number that a truth value or an integer counts as. -/
def whole? : Value → Option Int
  | .bool b => some (if b then 1 else 0)
  | .int n => some n
  | _ => none

mutual
/-- Equality of values. Numbers are compared by what they measure, a truth value counting as one or
zero; lists item by item; objects and tables name by name in any order. -/
def same : Value → Value → Bool
  | .null, .null => true
  | .double a, .double b => a.equals b
  | .double a, b => b.whole?.any a.isWhole
  | a, .double b => a.whole?.any b.isWhole
  | .string a, .string b => a == b
  | .array xs, .array ys => sameItems xs ys
  | .object xs, .object ys => xs.length == ys.length && sameMembers xs ys
  | .moment a, .moment b => a.same b
  | .table xs, .table ys => xs.length == ys.length && sameEntries xs ys
  | a, b => a.whole?.isSome && a.whole? == b.whole?
def sameItems : List Value → List Value → Bool
  | [], [] => true
  | x :: xs, y :: ys => same x y && sameItems xs ys
  | _, _ => false
def sameMembers : List (String × Value) → List (String × Value) → Bool
  | [], _ => true
  | (k, x) :: xs, ys => (match Fields.get? ys k with
    | some y => same x y
    | none => false) && sameMembers xs ys
def sameEntries : List (Value × Value) → List (Value × Value) → Bool
  | [], _ => true
  | (k, x) :: xs, ys => ys.any (fun (l, y) => same k l && same x y) && sameEntries xs ys
end

instance : BEq Value := ⟨same⟩

mutual
/-- Whether a property holds of a value and of everything inside it, the names in tables among
them. -/
def all (p : Value → Bool) : Value → Bool
  | .array items => p (.array items) && allItems p items
  | .object members => p (.object members) && allMembers p members
  | .table entries => p (.table entries) && allEntries p entries
  | v => p v
def allItems (p : Value → Bool) : List Value → Bool
  | [] => true
  | v :: rest => all p v && allItems p rest
def allMembers (p : Value → Bool) : List (String × Value) → Bool
  | [] => true
  | (_, v) :: rest => all p v && allMembers p rest
def allEntries (p : Value → Bool) : List (Value × Value) → Bool
  | [] => true
  | (k, v) :: rest => all p k && all p v && allEntries p rest
end

/-- Whether a value counts as filled in: neither null, false, a zero, nor empty. -/
def filled : Value → Bool
  | .null => false
  | .bool b => b
  | .int n => n != 0
  | .double x => !x.isZero
  | .string s => s != ""
  | .array items => !items.isEmpty
  | .object members => !members.isEmpty
  | .moment _ => true
  | .table entries => !entries.isEmpty

/-- The text of a text value. -/
def text? : Value → Option String
  | .string s => some s
  | _ => none

/-- The entries of a table under names that are texts. -/
def namedEntries (entries : List (Value × Value)) : Fields Value :=
  entries.filterMap fun (k, v) => k.text?.map fun name => (name, v)

/-- The members of an object. -/
def members? : Value → Option (Fields Value)
  | .object members => some members
  | .table entries => some (namedEntries entries)
  | _ => none

/-- The entries of a table with other ones in place of those under names that are texts. -/
def replaceNamed : List (Value × Value) → Fields Value → List (Value × Value)
  | [], members => members.map fun p => (.string p.1, p.2)
  | (k, v) :: entries, members =>
    match k.text?, members with
    | none, members => (k, v) :: replaceNamed entries members
    | some _, [] => replaceNamed entries []
    | some _, (name, w) :: rest => (.string name, w) :: replaceNamed entries rest

/-- An object with other members; a table keeps its entries under names that are no texts. -/
def withMembers : Value → Fields Value → Value
  | .table entries, members => .table (replaceNamed entries members)
  | _, members => .object members

/-- The member under a name, of an object that has it. -/
def get? (v : Value) (name : String) : Option Value :=
  v.members?.bind fun members => Fields.get? members name

/-- A member that is present and not null. -/
def given? (members : Fields Value) (name : String) : Option Value :=
  match members.get? name with
  | none => none
  | some .null => none
  | some v => some v

/-- A member that is present and filled in. -/
def filled? (members : Fields Value) (name : String) : Option Value :=
  (members.get? name).filter filled

/-! ## Other members in an object -/

theorem text?_eq_some_iff {v : Value} {name : String} : v.text? = some name ↔ v = .string name := by
  cases v <;> simp [text?]

theorem namedEntries_map (members : Fields Value) :
    namedEntries (members.map fun p => (.string p.1, p.2)) = members := by
  induction members with
  | nil => rfl
  | cons p rest ih => exact congrArg (p :: ·) ih

theorem namedEntries_cons_of_none {k : Value} (hk : k.text? = none) (v : Value)
    (entries : List (Value × Value)) : namedEntries ((k, v) :: entries) = namedEntries entries :=
  List.filterMap_cons_none (by simp [hk])

theorem namedEntries_replaceNamed (entries : List (Value × Value)) (members : Fields Value) :
    namedEntries (replaceNamed entries members) = members := by
  fun_induction replaceNamed entries members with
  | case1 members => exact namedEntries_map members
  | case2 k v entries members hk ih => rw [namedEntries_cons_of_none hk, ih]
  | case3 k v entries name hk ih => exact ih
  | case4 k v entries old name w rest hk ih => exact congrArg ((name, w) :: ·) ih

theorem replaceNamed_namedEntries (entries : List (Value × Value)) :
    replaceNamed entries (namedEntries entries) = entries := by
  induction entries with
  | nil => rfl
  | cons p entries ih =>
    obtain ⟨k, v⟩ := p
    cases hk : k.text? with
    | none =>
      rw [namedEntries_cons_of_none hk, replaceNamed, ih]
      exact hk
    | some name =>
      obtain rfl := text?_eq_some_iff.1 hk
      exact congrArg ((.string name, v) :: ·) ih

theorem replaceNamed_map (members more : Fields Value) :
    replaceNamed (members.map fun p => (.string p.1, p.2)) more =
      more.map fun p => (.string p.1, p.2) := by
  induction members generalizing more with
  | nil => rfl
  | cons p members ih =>
    cases more with
    | nil => exact ih []
    | cons q more => exact congrArg (_ :: ·) (ih more)

/-- What was there in between is not seen, unless there was less of it. -/
theorem replaceNamed_replaceNamed {entries : List (Value × Value)} {members : Fields Value}
    (h : (namedEntries entries).length ≤ members.length) (more : Fields Value) :
    replaceNamed (replaceNamed entries members) more = replaceNamed entries more := by
  fun_induction replaceNamed entries members generalizing more with
  | case1 members => exact replaceNamed_map members more
  | case2 k v entries members hk ih =>
    rw [namedEntries_cons_of_none hk] at h
    rw [replaceNamed, ih h, replaceNamed] <;> exact hk
  | case3 k v entries name hk ih =>
    obtain rfl := text?_eq_some_iff.1 hk
    cases h
  | case4 k v entries old name w rest hk ih =>
    obtain rfl := text?_eq_some_iff.1 hk
    have hrest := ih (Nat.le_of_succ_le_succ h)
    cases more with
    | nil => exact hrest []
    | cons p more => exact congrArg (_ :: ·) (hrest more)

theorem members?_withMembers {w : Value} {members : Fields Value} (h : w.members? = some members)
    (more : Fields Value) : (w.withMembers more).members? = some more := by
  cases w with
  | table entries => exact congrArg some (namedEntries_replaceNamed entries more)
  | object => rfl
  | null | bool | int | double | string | array | moment => cases h

theorem withMembers_self {w : Value} {members : Fields Value} (h : w.members? = some members) :
    w.withMembers members = w := by
  cases w with
  | table entries =>
    cases h
    exact congrArg Value.table (replaceNamed_namedEntries entries)
  | object =>
    cases h
    rfl
  | null | bool | int | double | string | array | moment => cases h

theorem withMembers_withMembers {w : Value} {members more : Fields Value}
    (h : w.members? = some members) (hlength : members.length ≤ more.length)
    (last : Fields Value) : (w.withMembers more).withMembers last = w.withMembers last := by
  cases w with
  | table entries =>
    cases h
    exact congrArg Value.table (replaceNamed_replaceNamed hlength last)
  | object => rfl
  | null | bool | int | double | string | array | moment => cases h

/-- Texts as an array. -/
def texts (names : List String) : Value := .array (names.map .string)

/-- A text, or null where there is none. -/
def optionalText (s : Option String) : Value := (s.map Value.string).getD .null

end Value

end ScimBridge
