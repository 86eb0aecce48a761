import ScimBridge.Json.Reader
import ScimBridge.Text.Integer
import ScimBridge.Text.Split

/-!
# Defects of documents

What is wrong with a text that is no document, and where. The text is walked from its beginning; at
each place something is awaited, and the first place where something else stands is named by its
line, its column and the number of characters in front of it. A number or a word ends where it cannot
go on, and what stands behind it is judged as what follows a value.

Main statement: what is left behind a quoted text is the end of what was there.
-/

namespace ScimBridge

namespace Document

/-- What is wrong at some place. -/
inductive Defect where
  | noValue
  | noName
  | noColon
  | noComma
  | furtherText
  | openText
  | controlCharacter
  | unknownEscape
  | brokenUnit
  | byteOrderMark
  deriving DecidableEq, Repr

/-- The wording of a defect. -/
def Defect.text : Defect → String
  | .noValue => "Expecting value"
  | .noName => "Expecting property name enclosed in double quotes"
  | .noColon => "Expecting ':' delimiter"
  | .noComma => "Expecting ',' delimiter"
  | .furtherText => "Extra data"
  | .openText => "Unterminated string starting at"
  | .controlCharacter => "Invalid control character at"
  | .unknownEscape => "Invalid \\escape"
  | .brokenUnit => "Invalid \\uXXXX escape"
  | .byteOrderMark => "Unexpected UTF-8 BOM (decode using utf-8-sig)"

/-- The containers of a document. -/
inductive Container where
  | array
  | object
  deriving DecidableEq, Repr

/-- The word for a container. -/
def Container.text : Container → String
  | .array => "array"
  | .object => "object"

/-- What is found in a text that is no document: a defect with the text from its place on, a number
of too many digits, or a container that is nested too deeply. -/
inductive Finding where
  | defect (d : Defect) (rest : List Char)
  | longNumber (digits : Nat)
  | tooDeep (c : Container)

/-- Behind the opening quote of a quoted text, to what follows its closing quote; `whole` begins
with the opening quote. The four digits of a code unit may not end the document. -/
def behindText (whole : List Char) (cs : List Char) : Except Finding (List Char) :=
  match cs with
  | [] => .error (.defect .openText whole)
  | '"' :: rest => .ok rest
  | ['\\'] => .error (.defect .openText whole)
  | '\\' :: 'u' :: p :: q :: r :: s :: next :: rest =>
    if [p, q, r, s].all fun c => (hexValue? c).isSome then behindText whole (next :: rest)
    else .error (.defect .brokenUnit ('u' :: p :: q :: r :: s :: next :: rest))
  | '\\' :: 'u' :: rest => .error (.defect .brokenUnit ('u' :: rest))
  | '\\' :: c :: rest =>
    if (escapedPoint? c).isSome then behindText whole rest
    else .error (.defect .unknownEscape ('\\' :: c :: rest))
  | c :: rest =>
    if c.toNat < 0x20 then .error (.defect .controlCharacter (c :: rest)) else behindText whole rest
termination_by cs.length

theorem suffix_of_behindText {whole cs rest : List Char} (h : behindText whole cs = .ok rest) :
    rest <:+ cs := by
  fun_induction behindText whole cs with
  | case1 => simp at h
  | case2 => cases h; exact List.suffix_cons ..
  | case3 => simp at h
  | case4 p q r s next tail _ ih =>
    exact (ih h).trans ⟨['\\', 'u', p, q, r, s], rfl⟩
  | case5 => simp at h
  | case6 => simp at h
  | case7 c tail _ _ _ ih => exact (ih h).trans ⟨['\\', c], rfl⟩
  | case8 => simp at h
  | case9 => simp at h
  | case10 c tail _ _ _ _ _ _ ih => exact (ih h).trans (List.suffix_cons ..)

/-- The words that are values. -/
def valueWords : List String := ["null", "true", "false", "NaN", "Infinity", "-Infinity"]

/-- What follows a word that is a value. -/
def behindWord? (cs : List Char) : Option (List Char) :=
  valueWords.findSome? fun word => after? word.toList cs

/-- What follows the fraction of a number, if there is one. -/
def behindFraction? : List Char → Option (List Char)
  | '.' :: c :: rest => if c.isDigit then some (rest.dropWhile Char.isDigit) else none
  | _ => none

/-- What follows the exponent of a number, if there is one. -/
def behindExponent? (cs : List Char) : Option (List Char) :=
  match readExponent? cs with
  | some (some _, rest) => some rest
  | _ => none

/-- The whole part of a number and what follows it; a zero in front stands alone. -/
def cutWhole? : List Char → Option (List Char × List Char)
  | '0' :: rest => some (['0'], rest)
  | cs => match spanDigits cs with
    | ([], _) => none
    | found => some found

/-- What follows the longest number in front of a text. -/
def behindNumber (cs : List Char) : Except Finding (List Char) :=
  match cutWhole? ((after? ['-'] cs).getD cs) with
  | none => .error (.defect .noValue cs)
  | some (whole, rest) =>
    match behindFraction? rest, behindExponent? ((behindFraction? rest).getD rest) with
    | none, none =>
      if maxIntegerDigits < whole.length then .error (.longNumber whole.length) else .ok rest
    | some rest, none => .ok rest
    | _, some rest => .ok rest

/-- What is awaited at a place. -/
inductive Awaited where
  | value
  | itemOrEnd
  | name
  | nameOrEnd
  | colon
  | separator

/-- A place in a document: the containers around it, innermost first, what is awaited there, and the
text from there on. -/
structure Spot where
  around : List Container
  awaited : Awaited
  rest : List Char

/-- Go into a container. -/
def Spot.enter (s : Spot) (c : Container) (awaited : Awaited) (rest : List Char) :
    Except Finding Spot :=
  if maxDepth ≤ s.around.length then .error (.tooDeep c) else .ok ⟨c :: s.around, awaited, rest⟩

/-- Over a value. -/
def Spot.overValue (s : Spot) : Except Finding Spot :=
  match s.rest with
  | '[' :: rest => s.enter .array .itemOrEnd rest
  | '{' :: rest => s.enter .object .nameOrEnd rest
  | '"' :: rest => (behindText s.rest rest).map fun rest => ⟨s.around, .separator, rest⟩
  | cs =>
    match behindWord? cs with
    | some rest => .ok ⟨s.around, .separator, rest⟩
    | none => (behindNumber cs).map fun rest => ⟨s.around, .separator, rest⟩

/-- Over the name of a member. -/
def Spot.overName (s : Spot) : Except Finding Spot :=
  match s.rest with
  | '"' :: rest => (behindText s.rest rest).map fun rest => ⟨s.around, .colon, rest⟩
  | cs => .error (.defect .noName cs)

/-- Behind a value, to the next one or out of a container. -/
def Spot.overSeparator (s : Spot) : Except Finding Spot :=
  match s.around, s.rest with
  | .array :: outer, ']' :: rest => .ok ⟨outer, .separator, rest⟩
  | .object :: outer, '}' :: rest => .ok ⟨outer, .separator, rest⟩
  | .array :: outer, ',' :: rest => .ok ⟨.array :: outer, .value, rest⟩
  | .object :: outer, ',' :: rest => .ok ⟨.object :: outer, .name, rest⟩
  | [], cs => .error (.defect .furtherText cs)
  | _, cs => .error (.defect .noComma cs)

/-- Whether a character stands between the parts of a document. -/
def isGap (c : Char) : Bool := c == ' ' || c == '\t' || c == '\n' || c == '\r'

/-- One step from a place without gaps in front. -/
def Spot.step (s : Spot) : Except Finding Spot :=
  match s.awaited, s.rest with
  | .itemOrEnd, ']' :: rest => .ok ⟨s.around.tail, .separator, rest⟩
  | .nameOrEnd, '}' :: rest => .ok ⟨s.around.tail, .separator, rest⟩
  | .value, _ | .itemOrEnd, _ => s.overValue
  | .name, _ | .nameOrEnd, _ => s.overName
  | .colon, ':' :: rest => .ok ⟨s.around, .value, rest⟩
  | .colon, cs => .error (.defect .noColon cs)
  | .separator, _ => s.overSeparator

/-- The first finding from a place on, within a number of steps. -/
def Spot.findWithin : Nat → Spot → Option Finding
  | 0, _ => none
  | steps + 1, s =>
    let s := { s with rest := s.rest.dropWhile isGap }
    match s.around, s.awaited, s.rest with
    | [], .separator, [] => none
    | _, _, _ => match s.step with
      | .error finding => some finding
      | .ok next => findWithin steps next

/-- What is found in a text that is no document. Each step goes over at least one character. -/
def finding? (cs : List Char) : Option Finding :=
  match cs with
  | '\uFEFF' :: _ => some (.defect .byteOrderMark cs)
  | _ => Spot.findWithin (cs.length + 1) ⟨[], .value, cs⟩

/-- The place behind some text, in words. -/
def placeText (front : List Char) : String :=
  let points := CodePoint.points front
  let line := points.count 10 + 1
  let column := (points.reverse.takeWhile (· != 10)).length + 1
  "line " ++ toString line ++ " column " ++ toString column
    ++ " (char " ++ toString points.length ++ ")"

/-- The wording of what is found in a text. -/
def Finding.text (cs : List Char) : Finding → String
  | .defect d rest => d.text ++ ": " ++ placeText (cs.take (cs.length - rest.length))
  | .longNumber digits => (WholeFault.tooLong digits).message
  | .tooDeep c =>
    "maximum recursion depth exceeded while decoding a JSON " ++ c.text ++ " from a unicode string"

/-- What a reader has to say about a text that is no document. -/
def complaint (text : String) : String :=
  ((finding? text.toList).map (Finding.text text.toList)).getD ""

end Document

end ScimBridge
