import ScimBridge.Json.Shape
import ScimBridge.Resource.Path

/-!
# Resources in the making

An object that the backend keeps under an attribute may stand at several places of a resource. It is
one object: what is written into it at one of its places is seen at all of them. While a resource is
made, each such place therefore only names the attribute, and the objects are kept beside the
resource. When everything is written, each name is replaced by its object. An object that lies
inside itself has no such replacement; in a text it is only hinted at where it comes again.

Main statements: replacing names in a value that holds none changes nothing, the text of a node is
that of its value, and writing along a path without shared objects is plain writing.
-/

namespace ScimBridge

/-- A node of a resource in the making. -/
inductive Draft where
  /-- A value into which nothing can be written. -/
  | value (v : Value)
  /-- The object that the backend keeps under an attribute. -/
  | shared (origin : String)
  | object (members : List (String × Draft))
  | list (items : List Draft)

namespace Draft

instance : Inhabited Draft := ⟨.value .null⟩

/-- The members of a node that is an object of its own. -/
def members? : Draft → Option (Fields Draft)
  | .object members => some members
  | _ => none

theorem eq_object_of_members? {d : Draft} {members : Fields Draft} (h : d.members? = some members) :
    d = .object members := by
  cases d with
  | object inner => exact congrArg Draft.object (Option.some.inj h)
  | value | shared | list => cases h

instance : Nested Draft where
  members? := members?
  ofMembers := .object
  withMembers := fun _ => .object
  members?_ofMembers := fun _ => rfl
  withMembers_ofMembers := fun _ _ => rfl
  members?_withMembers := fun _ _ => rfl
  withMembers_self := fun h => (eq_object_of_members? h).symm

mutual
/-- A value that may be written into. Objects inside lists are out of reach of every path. -/
def ofValue : Value → Draft
  | .object members => .object (ofMembers members)
  | v => .value v
def ofMembers : List (String × Value) → List (String × Draft)
  | [] => []
  | (name, v) :: rest => (name, ofValue v) :: ofMembers rest
end

/-- The place of a value that the backend keeps under an attribute: an object is shared, any other
value stands for itself. -/
def place (origin : String) (v : Value) : Draft :=
  match v with
  | .object _ => .shared origin
  | v => .value v

mutual
/-- The value of a node, where the objects of attributes are given. -/
def expand (look : String → Option Value) : Draft → Option Value
  | .value v => some v
  | .shared origin => look origin
  | .object members => (expandMembers look members).map .object
  | .list items => (expandItems look items).map .array
def expandItems (look : String → Option Value) : List Draft → Option (List Value)
  | [] => some []
  | d :: rest => do return (← expand look d) :: (← expandItems look rest)
def expandMembers (look : String → Option Value) :
    List (String × Draft) → Option (List (String × Value))
  | [] => some []
  | (name, d) :: rest => do return (name, ← expand look d) :: (← expandMembers look rest)
end

mutual
theorem expand_ofValue (look : String → Option Value) (v : Value) :
    expand look (ofValue v) = some v := by
  cases v with
  | object members => simp [ofValue, expand, expandMembers_ofMembers look members]
  | null | bool | int | double | string | array | moment | table => rfl
theorem expandMembers_ofMembers (look : String → Option Value)
    (members : List (String × Value)) :
    expandMembers look (ofMembers members) = some members := by
  cases members with
  | nil => rfl
  | cons p rest =>
    obtain ⟨name, v⟩ := p
    simp [ofMembers, expandMembers, expand_ofValue look v, expandMembers_ofMembers look rest]
end

mutual
/-- The text of a node inside a list or an object, where the texts of attributes' objects are
given. -/
def inner (look : String → String) : Draft → String
  | .value v => v.inner
  | .shared origin => look origin
  | .object members => "\x7b" ++ innerMembers look "" members ++ "\x7d"
  | .list items => "[" ++ innerItems look "" items ++ "]"
def innerItems (look : String → String) (separator : String) : List Draft → String
  | [] => ""
  | d :: rest => separator ++ inner look d ++ innerItems look ", " rest
def innerMembers (look : String → String) (separator : String) :
    List (String × Draft) → String
  | [] => ""
  | (name, d) :: rest =>
    separator ++ Text.quoted name ++ ": " ++ inner look d ++ innerMembers look ", " rest
end

/-- The text of a node on its own. -/
def shown (look : String → String) : Draft → String
  | .value v => v.shown
  | d => d.inner look

mutual
/-- The text of a node is that of its value. -/
theorem inner_of_expand {look : String → Option Value} {text : String → String}
    (h : ∀ origin v, look origin = some v → text origin = v.inner) {d : Draft} {v : Value}
    (hd : expand look d = some v) : inner text d = v.inner := by
  cases d with
  | value w => simp only [expand, Option.some.injEq] at hd; simp [inner, hd]
  | shared origin => exact h origin v hd
  | object members =>
    obtain ⟨values, hv, rfl⟩ := Option.map_eq_some_iff.1 hd
    simp [inner, Value.inner, innerMembers_of_expand h "" hv]
  | list items =>
    obtain ⟨values, hv, rfl⟩ := Option.map_eq_some_iff.1 hd
    simp [inner, Value.inner, innerItems_of_expand h "" hv]
theorem innerItems_of_expand {look : String → Option Value} {text : String → String}
    (h : ∀ origin v, look origin = some v → text origin = v.inner) (separator : String)
    {items : List Draft} {values : List Value} (hd : expandItems look items = some values) :
    innerItems text separator items = Value.innerItems separator values := by
  cases items with
  | nil => simp only [expandItems, Option.some.injEq] at hd; subst hd; rfl
  | cons d rest =>
    simp only [expandItems, Option.bind_eq_bind, Option.bind_eq_some_iff, Option.pure_def,
      Option.some.injEq] at hd
    obtain ⟨v, hv, others, ho, rfl⟩ := hd
    simp [innerItems, Value.innerItems, inner_of_expand h hv, innerItems_of_expand h ", " ho]
theorem innerMembers_of_expand {look : String → Option Value} {text : String → String}
    (h : ∀ origin v, look origin = some v → text origin = v.inner) (separator : String)
    {members : List (String × Draft)} {values : List (String × Value)}
    (hd : expandMembers look members = some values) :
    innerMembers text separator members = Value.innerMembers separator values := by
  cases members with
  | nil => simp only [expandMembers, Option.some.injEq] at hd; subst hd; rfl
  | cons p rest =>
    obtain ⟨name, d⟩ := p
    simp only [expandMembers, Option.bind_eq_bind, Option.bind_eq_some_iff, Option.pure_def,
      Option.some.injEq] at hd
    obtain ⟨v, hv, others, ho, rfl⟩ := hd
    simp [innerMembers, Value.innerMembers, inner_of_expand h hv,
      innerMembers_of_expand h ", " ho]
end

end Draft

/-- A resource in the making, and beside it the objects that the backend keeps under attributes. -/
structure Making where
  shared : Fields (Fields Draft)
  resource : Fields Draft

namespace Making

/-- The objects among some attributes, by their names. -/
def sharedOf (attributes : Fields Value) : Fields (Fields Draft) :=
  attributes.keys.filterMap fun name =>
    (((attributes.get? name).bind Value.members?).map Draft.ofMembers).map fun members =>
      (name, members)

/-- Where a path ends: in the resource or in the object of an attribute, and how it goes on from
there through objects of its own. -/
structure Place where
  origin : Option String
  names : List String
  deriving DecidableEq, Repr

/-- Follow a path through the members of an object; `behind` are the names since the last shared
object, in reverse. -/
def follow (shared : Fields (Fields Draft)) :
    List String → Option String → List String → Fields Draft → Place
  | name :: next :: rest, origin, behind, members =>
    match members.get? name with
    | some (.shared other) =>
      follow shared (next :: rest) (some other) [] ((shared.get? other).getD [])
    | some (.object inner) => follow shared (next :: rest) origin (name :: behind) inner
    | _ => ⟨origin, behind.reverse ++ name :: next :: rest⟩
  | names, origin, behind, _ => ⟨origin, behind.reverse ++ names⟩

/-- Write a node at a path. -/
def write (m : Making) (names : List String) (d : Draft) : Making :=
  let place := follow m.shared names none [] m.resource
  match place.origin with
  | none => { m with resource := Resource.writeAt d place.names m.resource }
  | some origin =>
    let members := (m.shared.get? origin).getD []
    { m with shared := m.shared.put origin (Resource.writeAt d place.names members) }

/-- The value of the object of an attribute, if no more than a number of objects lie inside each
other. -/
def sharedValue? (shared : Fields (Fields Draft)) : Nat → String → Option Value
  | 0, _ => none
  | depth + 1, origin => do
    let members ← shared.get? origin
    return .object (← Draft.expandMembers (sharedValue? shared depth) members)

/-- The value of the object of an attribute. More objects than there are can lie inside each other
only where one of them lies inside itself. -/
def look? (m : Making) (origin : String) : Option Value :=
  sharedValue? m.shared m.shared.length origin

/-- The value of a node. -/
def value (m : Making) (d : Draft) : Shaped Value :=
  match d.expand m.look? with
  | some v => .ok v
  | none => .error .misfit

/-- What is written in a text for an object that lies inside itself, where it comes again. -/
def comesAgain : String := "\x7b...\x7d"

/-- The text of the object of an attribute inside the objects of others. -/
def sharedText (shared : Fields (Fields Draft)) : Nat → List String → String → String
  | 0, _, _ => comesAgain
  | depth + 1, around, origin =>
    if around.contains origin then comesAgain
    else Draft.inner (sharedText shared depth (origin :: around))
      (.object ((shared.get? origin).getD []))

/-- The text of a node. Inside the objects of all attributes, every further one comes again. -/
def text (m : Making) (d : Draft) : String :=
  d.shown (sharedText m.shared (m.shared.length + 1) [])

/-- The members of the resource as values. -/
def finished (m : Making) : Shaped (Fields Value) :=
  match Draft.expandMembers m.look? m.resource with
  | some members => .ok members
  | none => .error .misfit

/-- A path that has come into the object of an attribute does not come back to the resource. -/
theorem follow_some (shared : Fields (Fields Draft)) (names : List String) (origin : String)
    (behind : List String) (members : Fields Draft) :
    (follow shared names (some origin) behind members).origin ≠ none := by
  induction names generalizing origin behind members with
  | nil => simp [follow]
  | cons name rest ih =>
    cases rest with
    | nil => simp [follow]
    | cons next rest =>
      unfold follow
      split
      · exact ih _ _ _
      · exact ih _ _ _
      · simp

/-- A path that ends in the resource ends as it began. -/
theorem names_follow (shared : Fields (Fields Draft)) (names behind : List String)
    (members : Fields Draft) (h : (follow shared names none behind members).origin = none) :
    (follow shared names none behind members).names = behind.reverse ++ names := by
  induction names generalizing behind members with
  | nil => simp [follow]
  | cons name rest ih =>
    cases rest with
    | nil => simp [follow]
    | cons next rest =>
      unfold follow at h ⊢
      split
      · rename_i hs
        rw [hs] at h
        exact absurd h (follow_some _ _ _ _ _)
      · rename_i hs
        rw [hs] at h
        simpa using ih _ _ h
      · rfl

/-- Writing along a path without shared objects is plain writing. -/
theorem write_of_follow (m : Making) (names : List String) (d : Draft)
    (h : (follow m.shared names none [] m.resource).origin = none) :
    m.write names d = { m with resource := Resource.writeAt d names m.resource } := by
  have hn := names_follow m.shared names [] m.resource h
  simp only [List.reverse_nil, List.nil_append] at hn
  simp only [write, h, hn]

end Making

end ScimBridge
