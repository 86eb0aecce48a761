/-!
# Named fields

Members of an object, tables from paths to attributes and other collections in which a name occurs
once and the order of entry is kept. Storing under a name that is there replaces the value where it
stands; storing under a new name appends.

Main statements: reading after storing gives the stored value under that name and what was there
before under any other name.
-/

namespace ScimBridge

/-- Values under names, in order of entry. -/
abbrev Fields (α : Type) := List (String × α)

namespace Fields

variable {α : Type}

/-- The value under a name. -/
def get? (fs : Fields α) (name : String) : Option α := List.lookup name fs

/-- Whether a name is present. -/
def has (fs : Fields α) (name : String) : Bool := (fs.get? name).isSome

/-- The names in order. -/
def keys (fs : Fields α) : List String := fs.map Prod.fst

/-- Store a value under a name. -/
def put : Fields α → String → α → Fields α
  | [], name, v => [(name, v)]
  | (k, w) :: rest, name, v => if name == k then (k, v) :: rest else (k, w) :: put rest name v

/-- Store a value under a name unless the name is present. -/
def putNew (fs : Fields α) (name : String) (v : α) : Fields α :=
  if fs.has name then fs else fs.put name v

/-- Drop a name. -/
def erase (fs : Fields α) (name : String) : Fields α := fs.filter fun p => p.1 != name

/-- Store entries one after the other. -/
def putAll (fs : Fields α) (entries : List (String × α)) : Fields α :=
  entries.foldl (fun acc p => acc.put p.1 p.2) fs

/-- Entries stored one after the other, beginning with none. -/
def ofEntries (entries : List (String × α)) : Fields α := putAll [] entries

theorem get?_nil (name : String) : get? ([] : Fields α) name = none := rfl

theorem get?_cons (k : String) (v : α) (rest : Fields α) (name : String) :
    get? ((k, v) :: rest) name = if name == k then some v else get? rest name := by
  unfold get?
  rw [List.lookup_cons]
  cases name == k <;> rfl

/-- What is stored is found. -/
theorem get?_put_self (fs : Fields α) (name : String) (v : α) :
    get? (fs.put name v) name = some v := by
  induction fs with
  | nil => simp [put, get?_cons]
  | cons p rest ih =>
    obtain ⟨k, w⟩ := p
    by_cases h : name = k
    · simp [put, get?_cons, h]
    · simp [put, get?_cons, h, ih]

/-- Storing under one name leaves the others alone. -/
theorem get?_put_of_ne (fs : Fields α) {name other : String} (v : α) (h : other ≠ name) :
    get? (fs.put name v) other = get? fs other := by
  induction fs with
  | nil => simp [put, get?_cons, get?_nil, h]
  | cons p rest ih =>
    obtain ⟨k, w⟩ := p
    by_cases hk : name = k
    · subst hk; simp [put, get?_cons, h]
    · simp [put, get?_cons, hk, ih]

theorem get?_put (fs : Fields α) (name other : String) (v : α) :
    get? (fs.put name v) other = if other = name then some v else get? fs other := by
  by_cases h : other = name
  · subst h; simp [get?_put_self]
  · simp [get?_put_of_ne fs v h, h]

/-- Storing adds at most the stored name. -/
theorem mem_keys_put (fs : Fields α) (name other : String) (v : α) :
    other ∈ keys (fs.put name v) ↔ other = name ∨ other ∈ keys fs := by
  induction fs with
  | nil => simp [put, keys]
  | cons p rest ih =>
    obtain ⟨k, w⟩ := p
    simp only [keys] at ih ⊢
    by_cases hk : name = k
    · subst hk; simp [put]
    · simp [put, hk, ih, or_left_comm]

end Fields

end ScimBridge
