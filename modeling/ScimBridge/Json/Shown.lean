import ScimBridge.Decimal.Shortest
import ScimBridge.Json.Value
import ScimBridge.Text.Classes
import ScimBridge.Text.CodePoint

/-!
# The text of a value inside a message

Identifiers, versions and references may be any value, and messages may name any value. A text
stands for itself; inside a list or an object it is quoted, with single quotes unless it holds
single quotes and no double ones.
-/

namespace ScimBridge

/-- A digit of a number below sixteen, in lower case. -/
def hexDigit (n : Nat) : Char := Nat.digitChar n

/-- The last `width` hexadecimal digits of a number. -/
def hexText (width n : Nat) : String :=
  String.ofList ((List.range width).reverse.map fun i => hexDigit (n >>> (4 * i) % 16))

namespace Text

/-- How a character is written between quotes of the kind `quote`. -/
def quotedChar (quote c : Char) : String :=
  if c == quote || c == '\\' then String.ofList ['\\', c]
  else if c == '\t' then "\\t"
  else if c == '\n' then "\\n"
  else if c == '\r' then "\\r"
  else if isHidden c then
    let n := c.toNat
    if n < 0x100 then "\\x" ++ hexText 2 n
    else if n < 0x10000 then "\\u" ++ hexText 4 n
    else "\\U" ++ hexText 8 n
  else String.ofList [c]

/-- How a code point is written between quotes of the kind `quote`. -/
def quotedPoint (quote : Char) (n : Nat) : String :=
  if CodePoint.isHalf n then "\\u" ++ hexText 4 n else quotedChar quote (Char.ofNat n)

/-- A text between quotes. -/
def quoted (s : String) : String :=
  let cs := s.toList
  let quote := if cs.contains '\'' && !cs.contains '"' then '"' else '\''
  let q := String.ofList [quote]
  q ++ String.join ((CodePoint.points cs).map (quotedPoint quote)) ++ q

end Text

namespace Value

mutual
/-- The text of a value inside a list or an object. -/
def inner : Value → String
  | .null => "None"
  | .bool true => "True"
  | .bool false => "False"
  | .int n => toString n
  | .double x => x.text Double.plainLayout
  | .string s => Text.quoted s
  | .array items => "[" ++ innerItems "" items ++ "]"
  | .object members => "\x7b" ++ innerMembers "" members ++ "\x7d"
  | .moment m => m.quoted
  | .table entries => "\x7b" ++ innerEntries "" entries ++ "\x7d"
def innerItems (separator : String) : List Value → String
  | [] => ""
  | v :: rest => separator ++ inner v ++ innerItems ", " rest
def innerMembers (separator : String) : List (String × Value) → String
  | [] => ""
  | (k, v) :: rest => separator ++ Text.quoted k ++ ": " ++ inner v ++ innerMembers ", " rest
def innerEntries (separator : String) : List (Value × Value) → String
  | [] => ""
  | (k, v) :: rest => separator ++ inner k ++ ": " ++ inner v ++ innerEntries ", " rest
end

/-- The name of a value's kind in messages. -/
def kindName : Value → String
  | .null => "NoneType"
  | .bool _ => "bool"
  | .int _ => "int"
  | .double _ => "float"
  | .string _ => "str"
  | .array _ => "list"
  | .object _ => "dict"
  | .moment m => m.kindName
  | .table _ => "dict"

/-- The text of a value on its own. -/
def shown : Value → String
  | .string s => s
  | .moment m => m.text
  | v => inner v

/-- Whether a value, apart from what is inside it, can be shown: an integer may be too long. -/
def isShort : Value → Bool
  | .int n => n.natAbs < Double.tenTo maxIntegerDigits
  | _ => true

/-- Whether a value has a text: no integer inside it is too long. -/
def isShowable (v : Value) : Bool := v.all isShort

end Value

end ScimBridge
