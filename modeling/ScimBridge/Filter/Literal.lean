import ScimBridge.Text.Classes

/-!
# Literals

A comparison value is sent to the backend as a keyword, a number or a quoted string. A value that is
none of these is put into quotes. The status of an account is kept by the backend as a word, so the
attribute `active` compares with that word.
-/

namespace ScimBridge

namespace Literal

/-- What may stand behind a complete literal: nothing, or one line end. -/
def atEnd (cs : List Char) : Bool := cs == [] || cs == ['\n']

/-- The rest of a text behind the quote that closes a string, if there is one. A backslash takes the
next character with it. -/
def afterString? : List Char → Option (List Char)
  | [] => none
  | '"' :: rest => some rest
  | '\\' :: _ :: rest => afterString? rest
  | '\\' :: [] => none
  | _ :: rest => afterString? rest

/-- A string in double quotes. -/
def isString (cs : List Char) : Bool :=
  match cs with
  | '"' :: rest => (afterString? rest).any atEnd
  | _ => false

/-- The rest of a text behind one or more decimal digits. -/
def afterDigits? (cs : List Char) : Option (List Char) :=
  match cs with
  | c :: rest => if isDecimal c then some (rest.dropWhile isDecimal) else none
  | [] => none

/-- The rest behind a fraction, or the text itself where there is none. -/
def afterFraction (cs : List Char) : List Char :=
  match cs with
  | '.' :: rest => (afterDigits? rest).getD cs
  | _ => cs

/-- The rest behind an exponent, or the text itself where there is none. -/
def afterExponent (cs : List Char) : List Char :=
  match cs with
  | c :: rest =>
    if c == 'e' || c == 'E' then
      let digits := match rest with
        | '+' :: r => r
        | '-' :: r => r
        | r => r
      (afterDigits? digits).getD cs
    else cs
  | [] => cs

/-- A number: perhaps a minus, digits of any script, perhaps a fraction, perhaps an exponent. -/
def isNumber (cs : List Char) : Bool :=
  let unsigned := match cs with
    | '-' :: rest => rest
    | rest => rest
  (afterDigits? unsigned).any fun rest => atEnd (afterExponent (afterFraction rest))

/-- The keywords of the backend. -/
def keywords : List String := ["true", "false", "null"]

/-- The content of a string between quotes: quotes and backslashes get a backslash in front. -/
def escape : List Char → List Char
  | [] => []
  | c :: rest => if c = '"' ∨ c = '\\' then '\\' :: c :: escape rest else c :: escape rest

/-- A text as a quoted string. -/
def quote (s : String) : String := String.ofList ('"' :: escape s.toList ++ ['"'])

/-- The attribute whose value is a status word at the backend. -/
def statusPath : String := "active"

/-- The status word of a truth value. -/
def statusWord? (value : String) : Option String :=
  if lowered value = "true" then some "\"active\""
  else if lowered value = "false" then some "\"inactive\""
  else none

/-- A comparison value without regard to its attribute. -/
def render (value : String) : String :=
  if keywords.contains (lowered value) then lowered value
  else if isNumber value.toList then value
  else if isString value.toList then value
  else quote value

/-- The backend's literal for the value of a comparison on a path. -/
def ofValue (path value : String) : String :=
  if path = statusPath then (statusWord? value).getD (render value) else render value

end Literal

end ScimBridge
