import ScimBridge.Json.Value
import ScimBridge.Text.Split

/-!
# Places inside a resource

A dotted path leads from a resource through objects to a value. Writing makes the objects on the way
that are missing; where something that is not an object stands in the way, nothing is written.

Main statement: a name in front of the path that is written to keeps what it had.
-/

namespace ScimBridge

/-- Trees whose nodes may hold further nodes under names. -/
class Nested (α : Type) where
  /-- What a node holds, if it may hold anything. -/
  members? : α → Option (Fields α)
  /-- The node that holds the given ones. -/
  ofMembers : Fields α → α
  /-- A node that may hold anything, with the given ones in place of those that it holds. -/
  withMembers : α → Fields α → α
  members?_ofMembers : ∀ members, members? (ofMembers members) = some members
  withMembers_ofMembers : ∀ members more, withMembers (ofMembers members) more = ofMembers more
  members?_withMembers : ∀ {w members}, members? w = some members →
    ∀ more, members? (withMembers w more) = some more
  withMembers_self : ∀ {w members}, members? w = some members → withMembers w members = w

instance : Nested Value where
  members? := Value.members?
  ofMembers := .object
  withMembers := Value.withMembers
  members?_ofMembers := fun _ => rfl
  withMembers_ofMembers := fun _ _ => rfl
  members?_withMembers := Value.members?_withMembers
  withMembers_self := Value.withMembers_self

namespace Resource

/-- The names of a dotted path; there is at least one. -/
def segments (path : String) : List String := cutText '.' path

section

variable {α : Type} [Nested α]

/-- Write a node below the members of another one. -/
def writeAt (v : α) : List String → Fields α → Fields α
  | [], members => members
  | [leaf], members => members.put leaf v
  | name :: next :: rest, members =>
    match members.get? name with
    | none => members.put name (Nested.ofMembers (writeAt v (next :: rest) []))
    | some w => match Nested.members? w with
      | some inner => members.put name (Nested.withMembers w (writeAt v (next :: rest) inner))
      | none => members

/-- A write is seen only below the first name of its path. -/
theorem get?_writeAt_of_ne (v : α) {name other : String} (rest : List String) (members : Fields α)
    (h : other ≠ name) : Fields.get? (writeAt v (name :: rest) members) other
      = members.get? other := by
  cases rest with
  | nil => exact Fields.get?_put_of_ne _ _ h
  | cons next rest =>
    unfold writeAt
    split
    · exact Fields.get?_put_of_ne _ _ h
    · split
      · exact Fields.get?_put_of_ne _ _ h
      · rfl

end

/-- The value that the names lead to; a step through a missing member or through something that is
not an object leads to null. -/
def readAt : List String → Value → Value
  | [], v => v
  | name :: rest, v => readAt rest ((v.get? name).getD .null)

/-- Write a value at a dotted path. -/
def write (resource : Fields Value) (path : String) (v : Value) : Fields Value :=
  writeAt v (segments path) resource

/-- The value at a dotted path. -/
def read (resource : Value) (path : String) : Value := readAt (segments path) resource

end Resource

end ScimBridge
