import ScimBridge.Filter.Basic
import ScimBridge.Text.Blank
import ScimBridge.Text.Classes

/-!
# Parentheses and string literals

One cursor moves over a filter and knows whether it stands in a string literal and how many
parentheses are open. Balance, the first connective outside parentheses and literals, and the
parenthesis that closes a group are all read off its way.
-/

namespace ScimBridge

/-- Outside string literals, inside one, or inside one behind a backslash. -/
inductive Place where
  | outside
  | inside
  | escaped
  deriving DecidableEq, Repr

/-- The place behind a character. -/
def Place.next : Place → Char → Place
  | .outside, c => if c = '"' then .inside else .outside
  | .inside, c => if c = '\\' then .escaped else if c = '"' then .outside else .inside
  | .escaped, _ => .inside

/-- A place and the number of open parentheses. -/
structure Cursor where
  place : Place
  depth : Int
  deriving DecidableEq, Repr

namespace Cursor

/-- In front of a text. -/
def start : Cursor := ⟨.outside, 0⟩

/-- Parentheses inside literals do not count. -/
def step (cur : Cursor) (c : Char) : Cursor :=
  { place := cur.place.next c
    depth :=
      if cur.place = .outside then
        if c = '(' then cur.depth + 1 else if c = ')' then cur.depth - 1 else cur.depth
      else cur.depth }

/-- Behind a text. -/
def behind (cur : Cursor) (cs : List Char) : Cursor := cs.foldl step cur

/-- The first fault of parentheses and literals, if there is one. A parenthesis that closes nothing
counts before an open literal, an open literal before an open parenthesis. -/
def fault? (cur : Cursor) : List Char → Option FilterFault
  | [] =>
    if cur.place ≠ .outside then some .unterminatedLiteral
    else if cur.depth ≠ 0 then some .unbalancedParentheses
    else none
  | c :: cs =>
    let next := cur.step c
    if next.depth < 0 then some .unbalancedParentheses else fault? next cs

end Cursor

/-- The fault of the parentheses and literals of a filter, if there is one. -/
def balanceFault? (cs : List Char) : Option FilterFault := Cursor.start.fault? cs

namespace Connective

/-- Whether the word stands at the head of a text, followed by a blank or an opening parenthesis.
`lower` is the text in lower case, from the same index on. -/
def standsAt (w : Connective) (cs lower : List Char) : Bool :=
  w.word.isPrefixOf lower &&
    match cs[w.word.length]? with
    | some c => isBlank c || c == '('
    | none => false

/-- The word that stands at the head of a text. -/
def at? (cs lower : List Char) : Option Connective :=
  [Connective.and, .or].find? fun w => w.standsAt cs lower

/-- Whether a word may begin behind a character. -/
def mayFollow : Option Char → Bool
  | none => false
  | some c => isBlank c || c == ')'

/-- The index of the first connective, and which one it is, in a text behind the character `before`
and the cursor `cur`. A connective stands outside literals and parentheses, behind a blank or a
closing parenthesis. -/
def search? (before : Option Char) (cur : Cursor) :
    List Char → List Char → Option (Nat × Connective)
  | [], _ => none
  | c :: cs, lower =>
    let here? :=
      if cur.place = .outside ∧ cur.depth = 0 ∧ c ≠ '"' ∧ c ≠ '(' ∧ c ≠ ')'
          ∧ mayFollow before = true then
        at? (c :: cs) lower
      else none
    match here? with
    | some w => some (0, w)
    | none => (search? (some c) (cur.step c) cs lower.tail).map fun (i, w) => (i + 1, w)

/-- The index of the first connective outside parentheses and literals, and which one it is. Its
letters are looked for in the lower case of the text at the same index. -/
def first? (cs : List Char) : Option (Nat × Connective) :=
  search? none Cursor.start cs (lowerText cs)

/-- The word that is found lies inside the text. -/
theorem search?_lt {before : Option Char} {cur : Cursor} {cs lower : List Char} {i : Nat}
    {w : Connective} (h : search? before cur cs lower = some (i, w)) : i < cs.length := by
  induction cs generalizing before cur lower i with
  | nil => simp [search?] at h
  | cons c cs ih =>
    simp only [search?] at h
    split at h
    · cases h; simp
    · obtain ⟨⟨j, v⟩, hj, he⟩ := Option.map_eq_some_iff.1 h
      cases he
      have := ih hj
      simp only [List.length_cons]
      omega

theorem first?_lt {cs : List Char} {i : Nat} {w : Connective} (h : first? cs = some (i, w)) :
    i < cs.length :=
  search?_lt h

end Connective

/-- The index at which the parentheses of a text behind the cursor `cur` are first all closed. -/
def closingIndex? (cur : Cursor) : List Char → Option Nat
  | [] => none
  | c :: cs =>
    if cur.place = .outside ∧ c = ')' ∧ cur.depth = 1 then some 0
    else (closingIndex? (cur.step c) cs).map (· + 1)

/-- The inside of a text that is one group in parentheses as a whole. -/
def groupInterior? (cs : List Char) : Option (List Char) :=
  match cs with
  | '(' :: rest =>
    if closingIndex? Cursor.start cs = some rest.length then some rest.dropLast else none
  | _ => none

theorem length_groupInterior_lt {cs inner : List Char} (h : groupInterior? cs = some inner) :
    inner.length < cs.length := by
  unfold groupInterior? at h
  split at h
  · split at h
    · cases h
      simp only [List.length_cons, List.length_dropLast]
      omega
    · cases h
  · cases h

end ScimBridge
