import ScimBridge.Yaml.BlockText

/-!
# Names, tags and directives

A node may have a name, by which later nodes stand for it again, and a tag, which says what kind of
value it is. Tags are written in short with handles; directives in front of a document declare
handles and the version of the format.
-/

namespace ScimBridge

namespace Yaml

/-- Characters of names, handles and directives. -/
def isNameChar (c : Char) : Bool := c.isAlphanum || c == '-' || c == '_'

/-- Whether a text begins with a character of a kind, or is empty. -/
def endsOr (p : Char → Bool) (cs : List Char) : Bool := cs.head?.all p

/-- A text that is read, where what follows it fits. -/
def withEnd (p : Char → Bool) (found : List Char × List Char) :
    Except DocumentFault (List Char × List Char) :=
  if endsOr p found.2 then .ok found else .error .malformed

/-- Blanks and line ends. -/
def isSpaceOrBreak (c : Char) : Bool := c == ' ' || isLineBreak c

/-- A name, behind the mark that begins it. -/
def readName (cs : List Char) : Except DocumentFault (String × List Char) := do
  let (name, rest) := cs.span isNameChar
  if name.isEmpty then throw .malformed
  let (name, rest) ← withEnd
    (fun c => isGap c || isLineBreak c || ['?', ':', ',', ']', '\x7d', '%', '@', '\u0060'].contains c)
    (name, rest)
  return (String.ofList name, rest)

/-- Characters of tags. -/
def isTagChar (c : Char) : Bool :=
  isNameChar c || [';', '/', '?', ':', '@', '&', '=', '+', '$', ',', '.', '!', '~', '*', '\'',
    '(', ')', '[', ']', '%'].contains c

/-- The characters of a tag up to one that has no place in it. An escape is a percent sign and the
two digits of an ASCII character; no tag that is known has others. -/
def tagText? : List Char → Option (List Char × List Char)
  | [] => some ([], [])
  | '%' :: high :: low :: rest => do
    let h ← Document.hexValue? high
    let l ← Document.hexValue? low
    if h < 8 then (tagText? rest).map fun (text, behind) => (Char.ofNat (16 * h + l) :: text, behind)
    else none
  | c :: rest =>
    if c == '%' then none
    else if isTagChar c then (tagText? rest).map fun (text, behind) => (c :: text, behind)
    else some ([], c :: rest)

/-- The text of a tag, which is not empty. -/
def readTagText (cs : List Char) : Except DocumentFault (List Char × List Char) :=
  match tagText? cs with
  | some (c :: text, rest) => .ok (c :: text, rest)
  | _ => .error .malformed

/-- A handle: an exclamation mark, or a name between two of them. -/
def readHandle : List Char → Except DocumentFault (List Char × List Char)
  | '!' :: rest =>
    if rest.head? == some ' ' then .ok (['!'], rest)
    else match rest.span isNameChar with
      | (name, '!' :: behind) => .ok ('!' :: (name ++ ['!']), behind)
      | _ => .error .malformed
  | _ => .error .malformed

/-- A tag as it is written: a handle, unless it is written out, and what follows it. -/
structure Tag where
  handle? : Option String
  text : String
  deriving DecidableEq, Repr

/-- A tag behind the exclamation mark that begins it. -/
def readTag (cs : List Char) : Except DocumentFault (Tag × List Char) := do
  match cs with
  | '<' :: rest =>
    let (text, behind) ← readTagText rest
    match behind with
    | '>' :: behind =>
      let (text, behind) ← withEnd isSpaceOrBreak (text, behind)
      return (⟨none, String.ofList text⟩, behind)
    | _ => throw .malformed
  | _ =>
    if atGap cs then
      let (text, behind) ← withEnd isSpaceOrBreak (['!'], cs)
      return (⟨none, String.ofList text⟩, behind)
    else
      let word := cs.takeWhile (!isSpaceOrBreak ·)
      let (handle, behind) ← if word.contains '!' then readHandle ('!' :: cs) else .ok (['!'], cs)
      let (text, behind) ← readTagText behind
      let (text, behind) ← withEnd isSpaceOrBreak (text, behind)
      return (⟨some (String.ofList handle), String.ofList text⟩, behind)

/-- What a line in front of a document declares. -/
inductive Directive where
  | version (major : Nat)
  | handle (name beginning : String)
  | unknown
  deriving DecidableEq, Repr

/-- A number and what follows it. -/
def readNumber (cs : List Char) : Except DocumentFault (Nat × List Char) :=
  match cs.span Char.isDigit with
  | ([], _) => .error .malformed
  | (digits, rest) => .ok (Document.digitsValue digits, rest)

/-- What a directive declares, by its name, and what follows it on the line. -/
def readDeclaration (name : String) (cs : List Char) :
    Except DocumentFault (Directive × List Char) := do
  match name with
  | "YAML" =>
    let (major, rest) ← readNumber (cs.dropWhile (· == ' '))
    match rest with
    | '.' :: rest =>
      let (_, rest) ← readNumber rest
      if endsOr isSpaceOrBreak rest then return (.version major, rest) else throw .malformed
    | _ => throw .malformed
  | "TAG" =>
    let (handle, rest) ← readHandle (cs.dropWhile (· == ' '))
    if rest.head? != some ' ' then throw .malformed
    let (beginning, rest) ← readTagText (rest.dropWhile (· == ' '))
    if endsOr isSpaceOrBreak rest then
      return (.handle (String.ofList handle) (String.ofList beginning), rest)
    else throw .malformed
  | _ => return (.unknown, cs.dropWhile (!isLineBreak ·))

/-- A directive behind its mark, and the lines below it. -/
def readDirective (cs : List Char) : Except DocumentFault (Directive × List Char) := do
  let (name, rest) := cs.span isNameChar
  if name.isEmpty then throw .malformed
  let (name, rest) ← withEnd isSpaceOrBreak (name, rest)
  let (directive, rest) ← readDeclaration (String.ofList name) rest
  return (directive, ← BlockText.passLine rest)

/-- The handles that need no declaration. -/
def usualHandles : Fields String := [("!", "!"), ("!!", "tag:yaml.org,2002:")]

/-- A tag written out, where its handle is known. -/
def Tag.full? (handles : Fields String) (tag : Tag) : Option String :=
  match tag.handle? with
  | none => some tag.text
  | some handle => (handles.get? handle).map (· ++ tag.text)

end Yaml

end ScimBridge
