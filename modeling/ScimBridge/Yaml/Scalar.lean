import ScimBridge.Json.Shown
import ScimBridge.Yaml.MomentText

/-!
# Scalars

What a scalar means follows from its tag or, if it is plain, from its spelling alone: a null, a
truth value, a number, a moment, one of two marks for mappings, or else a text. Numbers may have
underscores between their digits, and may be written in parts of sixty.
-/

namespace ScimBridge

namespace Yaml

/-- What a scalar means: a value, or the mark of a mapping whose members are taken over, or that of
a default value. -/
inductive Meaning where
  | value (v : Value)
  | merge
  | default

/-- A meaning, if a scalar has the spelling of one; the spelling may still be refused. -/
abbrev Spelled (α : Type) := Option (Except DocumentFault α)

/-- The spellings of null. -/
def nullWords : List String := ["", "~", "null", "Null", "NULL"]

/-- The spellings of true. -/
def trueWords : List String :=
  ["true", "True", "TRUE", "yes", "Yes", "YES", "on", "On", "ON"]

/-- The spellings of false. -/
def falseWords : List String :=
  ["false", "False", "FALSE", "no", "No", "NO", "off", "Off", "OFF"]

/-- The truth value that a word spells. -/
def truth? (s : String) : Option Bool :=
  if trueWords.contains s then some true
  else if falseWords.contains s then some false
  else none

/-- The value of a digit in any base up to sixteen. -/
def digitIn? (base : Nat) (c : Char) : Option Nat := (Document.hexValue? c).filter (· < base)

/-- Whether a character stands in a number of a base: a digit, or the underscore between digits. -/
def isDigitOf (base : Nat) (c : Char) : Bool := c == '_' || (digitIn? base c).isSome

/-- The text without underscores. -/
def withoutUnderscores (cs : List Char) : List Char := cs.filter (· != '_')

/-- The number that digits of a base spell. -/
def naturalIn (base : Nat) (cs : List Char) : Nat :=
  cs.foldl (fun n c => base * n + ((Document.hexValue? c).getD 0)) 0

/-- A sign, if there is one, and the rest. -/
def takeSign (cs : List Char) : Bool × List Char :=
  match cs with
  | '-' :: rest => (true, rest)
  | '+' :: rest => (false, rest)
  | rest => (false, rest)

/-- The parts of sixty behind the first part of a number: one or two digits each, behind colons. -/
def sixtieths? : List Char → Option (List Nat × List Char)
  | ':' :: a :: rest =>
    if !a.isDigit then none
    else match rest with
      | b :: more =>
        if b.isDigit then
          if a.toNat < 54 then
            (sixtieths? more).map fun (parts, behind) =>
              (Document.digitsValue [a, b] :: parts, behind)
          else none
        else (sixtieths? (b :: more)).map fun (parts, behind) =>
          (Document.digitsValue [a] :: parts, behind)
      | [] => some ([Document.digitsValue [a]], [])
  | cs => some ([], cs)

/-- A number that digits spell, unless it is too long. -/
def decimal (cs : List Char) : Except DocumentFault Nat :=
  if maxIntegerDigits < cs.length then .error .malformed
  else .ok (Document.digitsValue cs)

/-- A decimal integer, perhaps in parts of sixty. -/
def decimal? (cs : List Char) : Spelled Nat :=
  let whole := cs.takeWhile (isDigitOf 10)
  match sixtieths? (cs.drop whole.length) with
  | some (parts, []) => some ((decimal (withoutUnderscores whole)).map fun n =>
      parts.foldl (fun n part => 60 * n + part) n)
  | _ => none

/-- An integer of a base that is written behind a mark. -/
def marked? (base : Nat) (cs : List Char) : Spelled Nat :=
  if cs.isEmpty || !cs.all (isDigitOf base) then none
  else
    let digits := withoutUnderscores cs
    some (if digits.isEmpty then .error .malformed else .ok (naturalIn base digits))

/-- An integer without its sign: binary, hexadecimal, octal or decimal by how it begins. -/
def natural? (cs : List Char) : Spelled Nat :=
  match cs with
  | ['0'] => some (.ok 0)
  | '0' :: 'b' :: rest => marked? 2 rest
  | '0' :: 'x' :: rest => marked? 16 rest
  | '0' :: rest =>
    if rest.all (isDigitOf 8) then some (.ok (naturalIn 8 (withoutUnderscores rest))) else none
  | c :: _ => if c.isDigit then decimal? cs else none
  | [] => none

/-- An integer. -/
def integer? (cs : List Char) : Spelled Int :=
  let (negative, rest) := takeSign cs
  (natural? rest).map fun n => n.map fun n => if negative then -(n : Int) else n

/-- The exponent behind a fraction: none, or a mark, a sign and digits. -/
def exponent? (cs : List Char) : Option Int :=
  match cs with
  | [] => some 0
  | mark :: sign :: rest =>
    if (mark == 'e' || mark == 'E') && !rest.isEmpty && rest.all Char.isDigit then
      let n : Int := Document.digitsValue rest
      if sign == '-' then some (-n) else if sign == '+' then some n else none
    else none
  | _ => none

/-- The number `whole` and `digits` behind the point, times a power of ten. -/
def pointed (whole : Nat) (digits : List Char) (exponent : Int) : Double :=
  .ofDecimal false (whole * Double.tenTo digits.length + Document.digitsValue digits)
    (exponent - digits.length)

/-- The sum of a number and of whole places in front of it, each counting sixty of the one behind;
it is rounded place by place. -/
def addPlaces (least : Double) (places : List Nat) : Double :=
  (places.foldl (fun (sum, base) n => (sum.plus (n * base), 60 * base)) (least, 60)).1

/-- A number with a point behind its whole part, without its sign. Between the whole part and the
point there may be parts of sixty; otherwise there may be an exponent behind it. -/
def fractionBehind? (whole rest : List Char) : Option Double :=
  match sixtieths? rest with
  | some (parts, '.' :: rest) =>
    let behind := rest.takeWhile (isDigitOf 10)
    let digits := withoutUnderscores behind
    let rest := rest.drop behind.length
    match parts.reverse with
    | [] => (exponent? rest).map (pointed (Document.digitsValue whole) digits)
    | last :: front =>
      if rest.isEmpty then
        some (addPlaces (pointed last digits 0) (front ++ [Document.digitsValue whole]))
      else none
  | _ => none

/-- The spellings of the infinities behind the sign. -/
def infinityWords : List String := [".inf", ".Inf", ".INF"]

/-- The spellings of what is not a number. -/
def nanWords : List String := [".nan", ".NaN", ".NAN"]

/-- A number with a point. One without a whole part has no sign. -/
def fraction? (cs : List Char) : Option Double :=
  let (negative, rest) := takeSign cs
  let signed (x : Double) : Double := if negative then x.negate else x
  if nanWords.contains (String.ofList cs) then some .nan
  else if infinityWords.contains (String.ofList rest) then some (.infinity negative)
  else match cs, rest with
    | '.' :: c :: _, _ => if c.isDigit then fractionBehind? [] cs else none
    | _, c :: _ =>
      if c.isDigit then
        let whole := rest.takeWhile (isDigitOf 10)
        (fractionBehind? (withoutUnderscores whole) (rest.drop whole.length)).map signed
      else none
    | _, [] => none

/-- The meaning of a plain scalar. -/
def plainMeaning (s : String) : Except DocumentFault Meaning :=
  let cs := s.toList
  if let some b := truth? s then .ok (.value (.bool b))
  else if let some x := fraction? cs then .ok (.value (.double x))
  else if let some n := integer? cs then n.map fun n => .value (.int n)
  else if s == "<<" then .ok .merge
  else if nullWords.contains s then .ok (.value .null)
  else if let some m := MomentText.read? cs then m.map fun m => .value (.moment m)
  else if s == "=" then .ok .default
  else .ok (.value (.string s))

/-- How the tags that are known begin. -/
def tagSpace : String := "tag:yaml.org,2002:"

/-- The meaning of a scalar with a tag. Where the tag asks for a kind of value that the scalar does
not spell, it is refused. -/
def taggedMeaning (tag s : String) : Except DocumentFault Meaning :=
  let cs := s.toList
  match (after? tagSpace.toList tag.toList).map String.ofList with
  | some "str" => .ok (.value (.string s))
  | some "null" => .ok (.value .null)
  | some "bool" => match truth? s.toLower with
    | some b => .ok (.value (.bool b))
    | none => .error .beyondLimits
  | some "int" => match integer? cs with
    | some n => n.map fun n => .value (.int n)
    | none => .error .malformed
  | some "float" => match fraction? cs, integer? cs with
    | some x, _ => .ok (.value (.double x))
    | none, some n => n.map fun n => .value (.double (.ofDecimal (n < 0) n.natAbs 0))
    | none, none => .error .malformed
  | some "timestamp" => match MomentText.read? cs with
    | some m => m.map fun m => .value (.moment m)
    | none => .error .beyondLimits
  | some "merge" => .ok .merge
  | some "value" => .ok .default
  | _ => .error .malformed

end Yaml

end ScimBridge
