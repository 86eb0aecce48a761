import ScimBridge.Json.Value
import ScimBridge.Text.CodePoint

/-!
# Document tokens

A document is cut into brackets, commas, colons, strings and bare words by one pass over its
characters. The state of the pass says what the current token is; a bare word ends in front of the
first character that cannot belong to it. Where the pass cannot go on, the tokens end with one that
fits nowhere.
-/

namespace ScimBridge

namespace Document

/-- The smallest parts of a document. -/
inductive Token where
  | openArray
  | closeArray
  | openObject
  | closeObject
  | comma
  | colon
  | string (s : String)
  | value (v : Value)
  | junk

/-- The digits in front of a text and what follows them. -/
def spanDigits (cs : List Char) : List Char × List Char := cs.span Char.isDigit

/-- The number that ASCII digits spell. -/
def digitsValue (cs : List Char) : Nat :=
  cs.foldl (fun n c => 10 * n + (c.toNat - 48)) 0

/-- An exponent mark with its sign and digits: the exponent and what follows. -/
def readExponent? : List Char → Option (Option Int × List Char)
  | c :: rest =>
    if c == 'e' || c == 'E' then
      let (negative, rest) := match rest with
        | '-' :: r => (true, r)
        | '+' :: r => (false, r)
        | r => (false, r)
      match spanDigits rest with
      | ([], _) => none
      | (ds, rest) =>
        let n : Int := digitsValue ds
        some (some (if negative then -n else n), rest)
    else some (none, c :: rest)
  | [] => some (none, [])

/-- A number without its sign: a whole part without leading zeros, then perhaps a fraction and an
exponent. One that has neither is an integer. -/
def readNumber? (negative : Bool) (cs : List Char) : Option Value :=
  let (whole, rest) := spanDigits cs
  if whole.isEmpty || (whole.head? == some '0' && whole.length != 1) then none
  else
    let fraction? : Option (List Char × List Char) := match rest with
      | '.' :: r => match spanDigits r with
        | ([], _) => none
        | (ds, r) => some (ds, r)
      | r => some ([], r)
    match fraction? with
    | none => none
    | some (fraction, rest) =>
      match readExponent? rest with
      | some (exponent?, []) =>
        if fraction.isEmpty && exponent?.isNone then
          if maxIntegerDigits < whole.length then none
          else
            let n : Int := digitsValue whole
            some (.int (if negative then -n else n))
        else
          some (.double (.ofDecimal negative (digitsValue (whole ++ fraction))
            (exponent?.getD 0 - fraction.length)))
      | _ => none

/-- The value that a bare word stands for. -/
def bareValue? (cs : List Char) : Option Value :=
  match String.ofList cs with
  | "null" => some .null
  | "true" => some (.bool true)
  | "false" => some (.bool false)
  | "NaN" => some (.double .nan)
  | "Infinity" => some (.double (.infinity false))
  | "-Infinity" => some (.double (.infinity true))
  | _ => match cs with
    | '-' :: rest => readNumber? true rest
    | rest => readNumber? false rest

/-- The characters of a unit that stands alone. One that is no half is a character of the document,
where the mark is spelled already. -/
def unitChars (n : Nat) : List Char :=
  if CodePoint.isHalf n then CodePoint.spelling n else [Char.ofNat n]

/-- The characters of units, those of characters and of escapes; two halves that are a pair count as
one. -/
def charsOfUnits : List Nat → List Char
  | [] => []
  | hi :: lo :: rest =>
    if 0xD800 ≤ hi ∧ hi < 0xDC00 ∧ 0xDC00 ≤ lo ∧ lo < 0xE000 then
      CodePoint.spelling (0x10000 + (hi - 0xD800) * 0x400 + (lo - 0xDC00)) ++ charsOfUnits rest
    else unitChars hi ++ charsOfUnits (lo :: rest)
  | [n] => unitChars n

/-- Where the pass stands. Units and characters read so far are kept in reverse. -/
inductive Scan where
  | between
  | bare (word : List Char)
  | inString (units : List Nat)
  | escape (units : List Nat)
  | unit (units : List Nat) (digits value : Nat)

/-- The value of a hexadecimal digit. -/
def hexValue? (c : Char) : Option Nat :=
  let n := c.toNat
  if 48 ≤ n ∧ n ≤ 57 then some (n - 48)
  else if 97 ≤ n ∧ n ≤ 102 then some (n - 87)
  else if 65 ≤ n ∧ n ≤ 70 then some (n - 55)
  else none

/-- The code point of an escape of one letter. -/
def escapedPoint? (c : Char) : Option Nat :=
  match c with
  | '"' => some 0x22
  | '\\' => some 0x5C
  | '/' => some 0x2F
  | 'b' => some 0x08
  | 'f' => some 0x0C
  | 'n' => some 0x0A
  | 'r' => some 0x0D
  | 't' => some 0x09
  | _ => none

/-- A character outside strings, when no word is open: the next state and the token it makes. -/
def scanPlain (c : Char) : Scan × Option Token :=
  match c with
  | '[' => (.between, some .openArray)
  | ']' => (.between, some .closeArray)
  | '{' => (.between, some .openObject)
  | '}' => (.between, some .closeObject)
  | ',' => (.between, some .comma)
  | ':' => (.between, some .colon)
  | '"' => (.inString [], none)
  | ' ' => (.between, none)
  | '\t' => (.between, none)
  | '\n' => (.between, none)
  | '\r' => (.between, none)
  | c => (.bare [c], none)

/-- Whether a character ends a bare word. -/
def endsWord (c : Char) : Bool :=
  match scanPlain c with
  | (.bare _, _) => false
  | _ => true

/-- The tokens so far, in reverse, with the value of a word that ends. -/
def endWord (word : List Char) (tokens : List Token) : Except (List Token) (List Token) :=
  match bareValue? word.reverse with
  | some v => .ok (.value v :: tokens)
  | none => .error tokens

/-- One character: the next state and the tokens so far, in reverse, or the tokens in front of a
place where the pass cannot go on. -/
def scanStep (state : Scan × List Token) (c : Char) : Except (List Token) (Scan × List Token) :=
  let (scan, tokens) := state
  match scan with
  | .between =>
    let (next, token?) := scanPlain c
    .ok (next, token?.toList ++ tokens)
  | .bare word =>
    if endsWord c then do
      let tokens ← endWord word tokens
      let (next, token?) := scanPlain c
      return (next, token?.toList ++ tokens)
    else .ok (.bare (c :: word), tokens)
  | .inString units =>
    if c == '"' then
      .ok (.between, .string (String.ofList (charsOfUnits units.reverse)) :: tokens)
    else if c == '\\' then .ok (.escape units, tokens)
    else if c.toNat < 0x20 then .error tokens
    else .ok (.inString (c.toNat :: units), tokens)
  | .escape units =>
    if c == 'u' then .ok (.unit units 0 0, tokens)
    else match escapedPoint? c with
      | some p => .ok (.inString (p :: units), tokens)
      | none => .error tokens
  | .unit units digits value =>
    match hexValue? c with
    | some d =>
      if digits == 3 then .ok (.inString ((16 * value + d) :: units), tokens)
      else .ok (.unit units (digits + 1) (16 * value + d), tokens)
    | none => .error tokens

/-- The pass over a text, to the tokens in reverse. -/
def scanAll (cs : List Char) : Except (List Token) (List Token) := do
  let (scan, tokens) ← cs.foldlM scanStep (Scan.between, [])
  match scan with
  | .between => return tokens
  | .bare word => endWord word tokens
  | _ => throw tokens

/-- The tokens of a text. -/
def tokens (cs : List Char) : List Token :=
  match scanAll cs with
  | .ok tokens => tokens.reverse
  | .error tokens => (.junk :: tokens).reverse

end Document

end ScimBridge
