import ScimBridge.Yaml.PlainText
import ScimBridge.Yaml.QuotedText
import ScimBridge.Yaml.Tag

/-!
# Tokens of a YAML text

The marks and scalars of a text, together with the beginnings and ends of the collections that only
indentation shows. That something is the key of a mapping shows at the colon behind it, so places
where a key may have begun are remembered for the rest of their line. Where the text cannot be read
on, the tokens end with one that fits nowhere.
-/

namespace ScimBridge

namespace Yaml

/-- The smallest parts of a text. -/
inductive Token where
  | directive (d : Directive)
  | documentStart
  | documentEnd
  | blockSequence
  | blockMapping
  | blockEnd
  | openSequence
  | closeSequence
  | openMapping
  | closeMapping
  | dash
  | comma
  | key
  | value
  | anchor (name : String)
  | reference (name : String)
  | tag (t : Tag)
  | scalar (plain : Bool) (text : String)
  | junk (fault : DocumentFault)
  deriving DecidableEq, Repr

/-- A place where a key may have begun: how many tokens are in front of it, and whether nothing but
a key may stand there. -/
structure Candidate where
  tokens : Nat
  place : Place
  required : Bool

/-- A key and the colon behind it are at most this far apart. -/
def maxKeyLength : Nat := 1024

/-- Whether the colon behind a key can still follow. -/
def Candidate.isOpen (now : Place) (c : Candidate) : Bool :=
  c.place.line == now.line && now.index ≤ c.place.index + maxKeyLength

/-- What is left of a text, and what is known about what was read of it: the tokens, the columns of
the open block collections, the innermost first, the place where the key of the innermost collection
may have begun, those of the collections around it up to the outermost brackets, and whether a key
may begin here. -/
structure Lexing where
  rest : List Char
  place : Place
  tokens : Array Token
  indents : List Nat
  candidate? : Option Candidate
  outer : List (Option Candidate)
  keyAllowed : Bool

namespace Lexing

/-- A text of which nothing is read. -/
def start (cs : List Char) : Lexing := ⟨cs, .start, #[], [], none, [], true⟩

/-- Whether the place is between brackets. -/
def isBracketed (s : Lexing) : Bool := !s.outer.isEmpty

/-- The place where an end of the text is left. -/
def upTo (s : Lexing) (rest : List Char) : Lexing :=
  { s with
    rest
    place := s.place.after (s.rest.take (s.rest.length - rest.length)) }

/-- With one more token. -/
def push (s : Lexing) (t : Token) : Lexing := { s with tokens := s.tokens.push t }

/-- The text behind blanks, comments and line ends, and whether a line ended. -/
def skipGap (comment lineEnded : Bool) : List Char → List Char × Bool
  | [] => ([], lineEnded)
  | c :: rest =>
    if isLineBreak c then skipGap false true rest
    else if comment || c == ' ' then skipGap comment lineEnded rest
    else if c == '#' then skipGap true lineEnded rest
    else (c :: rest, lineEnded)

/-- At the next token. Outside brackets a key may begin on a new line. -/
def skip (s : Lexing) : Lexing :=
  let (rest, lineEnded) := skipGap false false s.rest
  { s.upTo rest with keyAllowed := s.keyAllowed || (lineEnded && !s.isBracketed) }

/-- Without the candidates whose colon can no longer follow. -/
def dropStale (s : Lexing) : Except DocumentFault Lexing :=
  if (s.candidate? :: s.outer).any fun c? =>
      c?.any fun c => c.required && !c.isOpen s.place then
    .error .malformed
  else .ok { s with
    candidate? := s.candidate?.filter (Candidate.isOpen s.place)
    outer := s.outer.map (Option.filter (Candidate.isOpen s.place)) }

/-- With the block collections closed that are open at the given columns. -/
def close (s : Lexing) (columns : List Nat) : Lexing :=
  { s with
    tokens := columns.foldl (fun ts _ => ts.push .blockEnd) s.tokens
    indents := s.indents.drop columns.length }

/-- With the block collections closed that are indented further than a column. -/
def unwind (s : Lexing) (column : Nat) : Lexing :=
  if s.isBracketed then s else s.close (s.indents.takeWhile (column < ·))

/-- With all block collections closed. -/
def unwindAll (s : Lexing) : Lexing := if s.isBracketed then s else s.close s.indents

/-- Whether a collection at a column lies further in than the open ones. -/
def isDeeper (s : Lexing) (column : Nat) : Bool := s.indents.head?.all (· < column)

/-- With a block collection begun at the place, unless one is open there. -/
def begin (s : Lexing) (t : Token) : Lexing :=
  if s.isDeeper s.place.column then { s.push t with indents := s.place.column :: s.indents } else s

/-- Without the candidate of the innermost collection, which must not be a required key. -/
def dropCandidate (s : Lexing) : Except DocumentFault Lexing :=
  if s.candidate?.any Candidate.required then .error .malformed
  else .ok { s with candidate? := none }

/-- With a candidate at the place, if a key may begin there. -/
def addCandidate (s : Lexing) : Except DocumentFault Lexing :=
  if s.keyAllowed then do
    let required := !s.isBracketed && s.indents.head? == some s.place.column
    let s ← s.dropCandidate
    return { s with candidate? := some ⟨s.tokens.size, s.place, required⟩ }
  else .ok s

/-- A mark between documents or a line in front of one. -/
def outside (s : Lexing) (t : Token) (rest : List Char) : Except DocumentFault Lexing := do
  let s ← s.unwindAll.dropCandidate
  return ({ s with keyAllowed := false }.push t).upTo rest

/-- An opening bracket. -/
def openBracket (s : Lexing) (t : Token) (rest : List Char) : Except DocumentFault Lexing := do
  let s ← s.addCandidate
  return { (s.push t).upTo rest with
    candidate? := none
    outer := s.candidate? :: s.outer
    keyAllowed := true }

/-- A closing bracket. -/
def closeBracket (s : Lexing) (t : Token) (rest : List Char) : Except DocumentFault Lexing := do
  let s ← s.dropCandidate
  match s.outer with
  | [] => throw .malformed
  | candidate? :: outer =>
    return { (s.push t).upTo rest with candidate?, outer, keyAllowed := false }

/-- A comma between brackets. -/
def comma (s : Lexing) (rest : List Char) : Except DocumentFault Lexing := do
  let s ← s.dropCandidate
  return ({ s with keyAllowed := true }.push .comma).upTo rest

/-- The mark of a sequence item or of a key that is written out. Outside brackets it may begin a
block collection. -/
def item (s : Lexing) (t collection : Token) (keyAllowed : Bool) (rest : List Char) :
    Except DocumentFault Lexing := do
  if !s.isBracketed && !s.keyAllowed then throw .malformed
  let s := if s.isBracketed then s else s.begin collection
  let s ← s.dropCandidate
  return ({ s with keyAllowed }.push t).upTo rest

/-- With a token in front of what began at a candidate. -/
def insertAt (s : Lexing) (c : Candidate) (t : Token) : Lexing :=
  { s with tokens := s.tokens.insertIdxIfInBounds c.tokens t }

/-- The colon in front of the value of a mapping. With a candidate it makes that a key, with which
a block mapping may begin. -/
def colon (s : Lexing) (rest : List Char) : Except DocumentFault Lexing :=
  match s.candidate? with
  | none => s.item .value .blockMapping (!s.isBracketed) rest
  | some c =>
    let s := { s with candidate? := none, keyAllowed := false }.insertAt c .key
    let s :=
      if !s.isBracketed && s.isDeeper c.place.column then
        { s.insertAt c .blockMapping with indents := c.place.column :: s.indents }
      else s
    .ok ((s.push .value).upTo rest)

/-- A token that may be a key or stand in front of one. -/
def content (s : Lexing) (t : Token) (rest : List Char) : Except DocumentFault Lexing := do
  let s ← s.addCandidate
  return ({ s with keyAllowed := false }.push t).upTo rest

/-- A quoted text. -/
def quoted (s : Lexing) (double : Bool) (rest : List Char) : Except DocumentFault Lexing := do
  let (text, behind) ← QuotedText.read double rest
  s.content (.scalar false text) behind

/-- A plain text. A key may begin behind it if a line ends there. -/
def plain (s : Lexing) : Except DocumentFault Lexing := do
  let indent := (s.indents.head?.map (· + 1)).getD 0
  let found := PlainText.read s.isBracketed indent s.rest
  let s ← s.content (.scalar true (CodePoint.textOfPlain found.text)) found.rest
  return { s with keyAllowed := found.lineEnded }

/-- A block text. -/
def block (s : Lexing) (folded : Bool) (rest : List Char) : Except DocumentFault Lexing := do
  let s ← s.dropCandidate
  let least := (s.indents.head?.map (· + 1)).getD 1
  let (text, behind) ← BlockText.read folded least rest
  return ({ s with keyAllowed := true }.push (.scalar false text)).upTo behind

/-- The next token, which begins with the given character. -/
def token (s : Lexing) (c : Char) (rest : List Char) : Except DocumentFault Lexing :=
  let atLineStart := s.place.column == 0
  if c == '%' && atLineStart then do
    let (directive, behind) ← readDirective rest
    s.outside (.directive directive) behind
  else if c == '-' && atLineStart && atMark s.rest then s.outside .documentStart (rest.drop 2)
  else if c == '.' && atLineStart && atMark s.rest then s.outside .documentEnd (rest.drop 2)
  else if c == '[' then s.openBracket .openSequence rest
  else if c == '\x7b' then s.openBracket .openMapping rest
  else if c == ']' then s.closeBracket .closeSequence rest
  else if c == '\x7d' then s.closeBracket .closeMapping rest
  else if c == ',' then s.comma rest
  else if c == '-' && atGap rest then s.item .dash .blockSequence true rest
  else if c == '?' && (s.isBracketed || atGap rest) then
    s.item .key .blockMapping (!s.isBracketed) rest
  else if c == ':' && (s.isBracketed || atGap rest) then s.colon rest
  else if c == '*' then do
    let (name, behind) ← readName rest
    s.content (.reference name) behind
  else if c == '&' then do
    let (name, behind) ← readName rest
    s.content (.anchor name) behind
  else if c == '!' then do
    let (tag, behind) ← readTag rest
    s.content (.tag tag) behind
  else if c == '|' && !s.isBracketed then s.block false rest
  else if c == '>' && !s.isBracketed then s.block true rest
  else if c == '\'' then s.quoted false rest
  else if c == '"' then s.quoted true rest
  else if PlainText.begins s.isBracketed c rest then s.plain
  else .error .malformed

/-- Up to the end of the next token and past it; nothing if there is none. -/
def next? (s : Lexing) : Except DocumentFault (Lexing × Bool) := do
  let s ← s.skip.dropStale
  let s := s.unwind s.place.column
  match s.rest with
  | [] => return (← s.unwindAll.dropCandidate, true)
  | c :: rest => return (← s.token c rest, false)

/-- All tokens. Every step but the last one takes a character. -/
def finish (steps : Nat) (s : Lexing) : List Token :=
  match steps with
  | 0 => (s.tokens.push (.junk .malformed)).toList
  | steps + 1 =>
    match s.next? with
    | .error fault => (s.tokens.push (.junk fault)).toList
    | .ok (done, true) => done.tokens.toList
    | .ok (more, false) => finish steps more

end Lexing

/-- The tokens of a text, which is given by its plain characters. -/
def tokens (cs : List Char) : List Token :=
  if cs.all isPrintable then
    let cs := if cs.head? == some byteOrderMark then cs.tail else cs
    (Lexing.start cs).finish (cs.length + 1)
  else [.junk .malformed]

end Yaml

end ScimBridge
