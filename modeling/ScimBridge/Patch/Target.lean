import ScimBridge.Schema.Names
import ScimBridge.Text.Blank
import ScimBridge.Text.Classes

/-!
# What a patch path points at

A path may begin with the name of a schema, and a name in it may be followed by a filter in
brackets. Such filters are passed over, except that a filter on the values of members selects one of
them.
-/

namespace ScimBridge

namespace Patch

/-- A path without the name of its schema, and that name. -/
structure Target where
  schema : Option String
  path : String
  deriving DecidableEq, Repr

/-- The schemas that a path may name. -/
def schemas : List String := [Urn.enterpriseUser, Urn.coreUser, Urn.coreGroup]

/-- The path behind the name of a schema, which is the whole path or is followed by a colon. -/
def behindSchema? (urn path : String) : Option String :=
  if path = urn then some "" else textAfter? (urn ++ ":") path

/-- What a path points at. -/
def Target.of (path : String) : Target :=
  match schemas.findSome? fun urn => (behindSchema? urn path).map fun rest => (urn, rest) with
  | some (urn, rest) => ⟨some urn, rest⟩
  | none => ⟨none, path⟩

/-- What follows the next closing bracket. -/
def afterBracket? : List Char → Option (List Char)
  | [] => none
  | c :: rest => if c = ']' then some rest else afterBracket? rest

theorem length_afterBracket {cs rest : List Char} (h : afterBracket? cs = some rest) :
    rest.length < cs.length := by
  induction cs with
  | nil => simp [afterBracket?] at h
  | cons c cs ih =>
    unfold afterBracket? at h
    split at h
    · cases h; simp
    · have := ih h
      simp only [List.length_cons]
      omega

/-- A path without its filters in brackets. A bracket that is never closed stays. -/
def withoutFilters : List Char → List Char
  | [] => []
  | c :: cs =>
    if c = '[' then
      match _h : afterBracket? cs with
      | some rest => withoutFilters rest
      | none => c :: withoutFilters cs
    else c :: withoutFilters cs
termination_by cs => cs.length
decreasing_by
  · have := length_afterBracket _h
    simp only [List.length_cons]
    omega
  · simp
  · simp

/-- The path of attribute names that a target spells. -/
def Target.plain (t : Target) : String := String.ofList (withoutFilters t.path.toList)

/-- Whether a target is the member list of a group or lies inside it. -/
def Target.isMembers (t : Target) : Bool :=
  let name := lowered t.path
  name == "members" || beginsWith "members." name || beginsWith "members[" name

/-- What follows a word in any case. -/
def afterWord? (word : List Char) (cs : List Char) : Option (List Char) :=
  if lowerText (cs.take word.length) = word then some (cs.drop word.length) else none

/-- What follows one or more blanks. -/
def afterGap? (cs : List Char) : Option (List Char) :=
  match cs with
  | c :: rest => if isBlank c then some (trimStart rest) else none
  | [] => none

/-- The text up to the next quote of a kind, and what follows the quote. -/
def upToQuote? (quote : Char) : List Char → Option (List Char × List Char)
  | [] => none
  | c :: rest =>
    if c = quote then some ([], rest)
    else (upToQuote? quote rest).map fun (text, tail) => (c :: text, tail)

/-- The identifier in a filter `[value eq "…"]` that begins a text. -/
def valueFilter? (cs : List Char) : Option (List Char) := do
  let rest ← after? ['['] cs
  let rest ← afterWord? ['v', 'a', 'l', 'u', 'e'] (trimStart rest)
  let rest ← afterGap? rest
  let rest ← afterWord? ['e', 'q'] rest
  let rest ← afterGap? rest
  match rest with
  | quote :: rest =>
    if quote = '"' ∨ quote = '\'' then do
      let (id, rest) ← upToQuote? quote rest
      match trimStart rest with
      | ']' :: _ => some id
      | _ => none
    else none
  | [] => none

/-- The identifier in the first such filter of a path. -/
def selectedId? : List Char → Option (List Char)
  | [] => none
  | c :: cs => match valueFilter? (c :: cs) with
    | some id => some id
    | none => selectedId? cs

end Patch

end ScimBridge
