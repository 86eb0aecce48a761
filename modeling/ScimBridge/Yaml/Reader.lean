import ScimBridge.Yaml.Node
import ScimBridge.Yaml.Scalar

/-!
# YAML documents

The value of a YAML text. The entries of a mapping are stored in order, so that of two with one name
the later one counts; entries that are taken over from other mappings go in front of its own. Any
scalar may be a name. A mapping whose names are all texts is an object, another one a table.

Main statements: every text has a value or is refused, and an empty one is null; what is stored in a
mapping under text names makes an object.
-/

namespace ScimBridge

namespace Yaml

/-- A key of a mapping: the mark of entries that are taken over, or a name. -/
inductive Key where
  | merge
  | name (v : Value)

/-- The meaning of a scalar. -/
def meaning (tag? : Option String) (plain : Bool) (text : String) : Except DocumentFault Meaning :=
  match tag? with
  | some tag => taggedMeaning tag text
  | none => if plain then plainMeaning text else .ok (.value (.string text))

/-- The key that a meaning is. -/
def Meaning.key : Meaning → Key
  | .merge => .merge
  | .default => .name (.string "=")
  | .value v => .name v

/-- The value that a meaning is; the marks are no values. -/
def Meaning.value? : Meaning → Except DocumentFault Value
  | .value v => .ok v
  | _ => .error .malformed

/-- Refuse a tag that is none of the collection's own. -/
def checkTag (own : String) (tag? : Option String) : Except DocumentFault Unit :=
  if tag?.all (· == tagSpace ++ own) then .ok () else .error .malformed

/-- The key that a node is; no collection is one. -/
def Node.key : Node → Except DocumentFault Key
  | .scalar tag? plain text => (meaning tag? plain text).map Meaning.key
  | _ => .error .malformed

/-- Names and values in order. -/
abbrev Entries := List (Value × Value)

namespace Entries

/-- Store a value under a name. A name that is there stays as it was written first. -/
def put : Entries → Value → Value → Entries
  | [], name, v => [(name, v)]
  | (k, w) :: rest, name, v => if name == k then (k, v) :: rest else (k, w) :: put rest name v

/-- Entries stored one after the other. -/
def stored (entries : Entries) : Entries := entries.foldl (fun acc p => put acc p.1 p.2) []

/-- The members, if all names are texts. -/
def members? (entries : Entries) : Option (Fields Value) :=
  entries.mapM fun (k, v) => k.text?.map fun name => (name, v)

/-- The mapping of entries with different names. -/
def toValue (entries : Entries) : Value :=
  match members? entries with
  | some members => .object members
  | none => .table entries

theorem members?_map (members : Fields Value) :
    members? (members.map fun p => (.string p.1, p.2)) = some members := by
  unfold members?
  rw [List.mapM_map]
  induction members with
  | nil => rfl
  | cons p rest ih => simp_all [Value.text?]

/-- A mapping whose names are texts is an object. -/
theorem toValue_map (members : Fields Value) :
    toValue (members.map fun p => (.string p.1, p.2)) = .object members := by
  rw [toValue, members?_map]

/-- The entries of a mapping. -/
def ofValue? : Value → Option Entries
  | .object members => some (members.map fun p => (.string p.1, p.2))
  | .table entries => some entries
  | _ => none

end Entries

/-- The entries that a value gives to a mapping: those of a mapping, or of several, the first of
which counts most. -/
def takenOver : Value → Except DocumentFault Entries
  | .array items =>
    match items.mapM Entries.ofValue? with
    | some all => .ok all.reverse.flatten
    | none => .error .malformed
  | v =>
    match Entries.ofValue? v with
    | some entries => .ok entries
    | none => .error .malformed

/-- The mapping of entries under their keys: first those that are taken over, then its own. -/
def gathered (entries : List (Key × Value)) : Except DocumentFault Value := do
  let merged ← entries.mapM fun (key, v) => match key with
    | .merge => takenOver v
    | .name _ => .ok []
  let own := entries.filterMap fun (key, v) => match key with
    | .merge => none
    | .name k => some (k, v)
  return (Entries.stored (merged.flatten ++ own)).toValue

mutual
/-- The value of a node. -/
def Node.value : Node → Except DocumentFault Value
  | .scalar tag? plain text => do (← meaning tag? plain text).value?
  | .sequence tag? items => do
    checkTag "seq" tag?
    return .array (← itemValues items)
  | .mapping tag? members => do
    checkTag "map" tag?
    gathered (← entryValues members)
/-- The values of items. -/
def itemValues : List Node → Except DocumentFault (List Value)
  | [] => .ok []
  | item :: rest => do
    let v ← item.value
    return v :: (← itemValues rest)
/-- The keys and values of entries. -/
def entryValues : List (Node × Node) → Except DocumentFault (List (Key × Value))
  | [] => .ok []
  | (key, node) :: rest => do
    let k ← key.key
    let v ← node.value
    return (k, v) :: (← entryValues rest)
end

/-- The value of a YAML text. Halves of surrogate pairs have no place in it but behind escapes. -/
def read (text : String) : Except DocumentFault Value := do
  match CodePoint.plain? text.toList with
  | none => throw .malformed
  | some cs => (← Node.ofTokens (tokens cs)).value

theorem read_empty : read "" = .ok .null := rfl

end Yaml

end ScimBridge
