import ScimBridge.Yaml.Token

/-!
# Nodes of a YAML text

The tree that the tokens of a text spell: scalars, sequences and mappings, whose keys may be any
nodes. A text holds one document; a node that refers to an earlier one by name is that node again.
What the scalars mean is not decided here.
-/

namespace ScimBridge

namespace Yaml

/-- A node with the tag that is written in front of it. A plain scalar is one whose spelling says
what kind of value it is. -/
inductive Node where
  | scalar (tag? : Option String) (plain : Bool) (text : String)
  | sequence (tag? : Option String) (items : List Node)
  | mapping (tag? : Option String) (members : List (Node × Node))

namespace Node

/-- The node where nothing is written. -/
def empty : Node := .scalar none true ""

/-- The most sequences and mappings that a node may lie in. -/
def maxDepth : Nat := 475

/-- What is known while nodes are read: the tokens that are left, the nodes that have names, and
the handles of tags. -/
structure Reading where
  tokens : List Token
  named : Fields Node
  handles : Fields String

/-- A step of the reading. -/
abbrev Read := StateT Reading (Except DocumentFault)

/-- Stop: the tokens do not fit. -/
def refuse {α : Type} : Read α := throw .malformed

/-- The next token, unless there is none. -/
def peek? : Read (Option Token) := do
  match (← get).tokens with
  | [] => return none
  | .junk fault :: _ => throw fault
  | t :: _ => return some t

/-- Pass a token. -/
def pass : Read Unit := modify fun r => { r with tokens := r.tokens.tail }

/-- Whether one of some tokens is next. -/
def isNext (ts : List Token) : Read Bool := return (← peek?).any ts.contains

/-- Pass a token if it is next. -/
def passIf (t : Token) : Read Bool := do
  if ← isNext [t] then
    pass
    return true
  else return false

/-- Pass a token, which must be next. -/
def demand (t : Token) : Read Unit := do
  if !(← passIf t) then refuse

/-- A name in front of a node, which no earlier node has. -/
def name? : Read (Option String) := do
  match ← peek? with
  | some (.anchor name) =>
    pass
    if (← get).named.has name then refuse else return some name
  | _ => return none

/-- A tag in front of a node, written out. -/
def tag? : Read (Option String) := do
  match ← peek? with
  | some (.tag t) =>
    pass
    match t.full? (← get).handles with
    | some full => return some full
    | none => refuse
  | _ => return none

/-- The name and the tag in front of a node, in either order. -/
def properties : Read (Option String × Option String) := do
  match ← name? with
  | some name => return (some name, ← tag?)
  | none =>
    let tag? ← tag?
    return (← name?, tag?)

/-- The tag that says no more than that a node is what it is. -/
def bareTag : String := "!"

/-- The depth of the items of a collection at a depth. -/
def deeper (depth : Nat) : Read Nat :=
  if depth < maxDepth then return depth + 1 else throw .beyondLimits

/-- Tokens that show that nothing is written in a sequence that is not indented. -/
def looseItemEnds : List Token := [.dash, .key, .value, .blockEnd]

/-- Tokens that show that nothing is written in a block mapping. -/
def memberEnds : List Token := [.key, .value, .blockEnd]

mutual
/-- The node that comes next; `loose` says that a sequence need not be indented here. -/
def read (steps depth : Nat) (loose : Bool) : Read Node :=
  match steps with
  | 0 => refuse
  | steps + 1 => do
    match ← peek? with
    | some (.reference name) =>
      pass
      match (← get).named.get? name with
      | some node => return node
      | none => refuse
    | _ =>
      let (name?, tag?) ← properties
      let node ← readBare steps depth loose tag? (name?.isSome || tag?.isSome)
      match name? with
      | some name => modify fun r => { r with named := r.named.put name node }
      | none => pure ()
      return node
termination_by structural steps
/-- The node behind its name and its tag; where there is one of them, it may be empty. -/
def readBare (steps depth : Nat) (loose : Bool) (tag? : Option String) (given : Bool) : Read Node :=
  match steps with
  | 0 => refuse
  | steps + 1 => do
    let kind? := tag?.filter (· != bareTag)
    match ← peek? with
    | some (.scalar plain text) =>
      pass
      return .scalar kind? (plain || tag? == some bareTag) text
    | some .openSequence =>
      pass
      return .sequence kind? (← bracketedItems steps (← deeper depth) [])
    | some .openMapping =>
      pass
      return .mapping kind? (← bracketedMembers steps (← deeper depth) [])
    | some .blockSequence =>
      pass
      return .sequence kind? (← blockItems steps (← deeper depth) [])
    | some .blockMapping =>
      pass
      return .mapping kind? (← blockMembers steps (← deeper depth) [])
    | t? =>
      if loose && t? == some .dash then
        return .sequence kind? (← looseItems steps (← deeper depth) [])
      else if given then return .scalar kind? true ""
      else refuse
termination_by structural steps
/-- The node that comes next, or the empty one in front of certain tokens. -/
def readUnless (ends : List Token) (steps depth : Nat) (loose : Bool) : Read Node :=
  match steps with
  | 0 => refuse
  | steps + 1 => do
    if ← isNext ends then return empty else read steps depth loose
termination_by structural steps
/-- The value of a member, or the empty node where there is none. -/
def memberValue (ends : List Token) (steps depth : Nat) (loose : Bool) : Read Node :=
  match steps with
  | 0 => refuse
  | steps + 1 => do
    if ← passIf .value then readUnless ends steps depth loose else return empty
termination_by structural steps
/-- The items of a block sequence; earlier ones in reverse. -/
def blockItems (steps depth : Nat) (items : List Node) : Read (List Node) :=
  match steps with
  | 0 => refuse
  | steps + 1 => do
    if ← passIf .dash then
      let item ← readUnless [.dash, .blockEnd] steps depth false
      blockItems steps depth (item :: items)
    else
      demand .blockEnd
      return items.reverse
termination_by structural steps
/-- The items of a block sequence that is not indented. -/
def looseItems (steps depth : Nat) (items : List Node) : Read (List Node) :=
  match steps with
  | 0 => refuse
  | steps + 1 => do
    if ← passIf .dash then
      let item ← readUnless looseItemEnds steps depth false
      looseItems steps depth (item :: items)
    else return items.reverse
termination_by structural steps
/-- The members of a block mapping. -/
def blockMembers (steps depth : Nat) (members : List (Node × Node)) : Read (List (Node × Node)) :=
  match steps with
  | 0 => refuse
  | steps + 1 => do
    if ← passIf .key then
      let key ← readUnless memberEnds steps depth true
      let v ← memberValue memberEnds steps depth true
      blockMembers steps depth ((key, v) :: members)
    else
      demand .blockEnd
      return members.reverse
termination_by structural steps
/-- The items of a sequence in brackets. One that is written as a key is a mapping of its own. -/
def bracketedItems (steps depth : Nat) (items : List Node) : Read (List Node) :=
  match steps with
  | 0 => refuse
  | steps + 1 => do
    if !items.isEmpty && !(← isNext [.closeSequence]) then demand .comma
    if ← passIf .closeSequence then return items.reverse
    else if ← passIf .key then
      let inner ← deeper depth
      let key ← readUnless [.value, .comma, .closeSequence] steps inner false
      let v ← memberValue [.comma, .closeSequence] steps inner false
      bracketedItems steps depth (.mapping none [(key, v)] :: items)
    else
      let item ← read steps depth false
      bracketedItems steps depth (item :: items)
termination_by structural steps
/-- The members of a mapping in brackets. -/
def bracketedMembers (steps depth : Nat) (members : List (Node × Node)) :
    Read (List (Node × Node)) :=
  match steps with
  | 0 => refuse
  | steps + 1 => do
    if !members.isEmpty && !(← isNext [.closeMapping]) then demand .comma
    if ← passIf .closeMapping then return members.reverse
    else if ← passIf .key then
      let key ← readUnless [.value, .comma, .closeMapping] steps depth false
      let v ← memberValue [.comma, .closeMapping] steps depth false
      bracketedMembers steps depth ((key, v) :: members)
    else
      let key ← read steps depth false
      bracketedMembers steps depth ((key, empty) :: members)
termination_by structural steps
end

/-- The major version of the format that is read. -/
def version : Nat := 1

/-- The directives in front of a document, the version of which may be given once, and the handles
that they declare. -/
def directives (steps : Nat) (versioned : Bool) (declared : Fields String) :
    Read (Fields String) :=
  match steps with
  | 0 => refuse
  | steps + 1 => do
    match ← peek? with
    | some (.directive d) =>
      pass
      match d with
      | .version major =>
        if versioned || major != version then refuse else directives steps true declared
      | .handle name beginning =>
        if declared.has name then refuse
        else directives steps versioned (declared.put name beginning)
      | .unknown => directives steps versioned declared
    | _ => return declared

/-- Pass all ends of documents that come next. -/
def passEnds (steps : Nat) : Read Unit :=
  match steps with
  | 0 => refuse
  | steps + 1 => do if ← passIf .documentEnd then passEnds steps

/-- Whether a document ends in front of a token. -/
def endsDocument : Option Token → Bool
  | none => true
  | some (.directive _) => true
  | some .documentStart => true
  | some .documentEnd => true
  | _ => false

/-- The only document, behind which there may be nothing else; a text may hold none. -/
def document (steps : Nat) : Read Node := do
  match ← peek? with
  | none => return empty
  | some t =>
    let explicit := t == .documentStart || t matches .directive _
    if explicit then
      let declared ← directives steps false []
      modify fun r => { r with handles := declared ++ usualHandles }
      demand .documentStart
    let node ← if explicit && endsDocument (← peek?) then pure empty else read steps 0 false
    passEnds steps
    if (← peek?).isSome then refuse else return node

/-- The node that tokens spell. Of the readings that lie in one another, every fourth one at least
passes a token. -/
def ofTokens (ts : List Token) : Except DocumentFault Node :=
  ((document (4 * ts.length + 4)).run ⟨ts, [], usualHandles⟩).map Prod.fst

end Node

end Yaml

end ScimBridge
