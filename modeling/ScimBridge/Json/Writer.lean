import ScimBridge.Json.Shown

/-!
# Writing documents

The characters outside the printable ASCII range are escaped, those beyond the basic plane as a
surrogate pair. A document is written on one line or, for people, with one item a line. The names of
a table are written like texts; moments have no place in what is written, which is to be checked
before.
-/

namespace ScimBridge

namespace Document

/-- An escape for a 16-bit unit. -/
def unitEscape (n : Nat) : String := "\\u" ++ hexText 4 n

/-- A character inside a document string. -/
def charText (c : Char) : String :=
  if c == '"' then "\\\""
  else if c == '\\' then "\\\\"
  else if c == '\n' then "\\n"
  else if c == '\r' then "\\r"
  else if c == '\t' then "\\t"
  else if c == '\x0c' then "\\f"
  else if c == '\x08' then "\\b"
  else
    let n := c.toNat
    if 0x20 ≤ n && n ≤ 0x7E then String.ofList [c]
    else if n < 0x10000 then unitEscape n
    else
      let m := n - 0x10000
      unitEscape (0xD800 + m / 0x400) ++ unitEscape (0xDC00 + m % 0x400)

/-- A code point inside a document string. -/
def pointText (n : Nat) : String :=
  if CodePoint.isHalf n then unitEscape n else charText (Char.ofNat n)

/-- A string with its quotes. -/
def stringText (s : String) : String :=
  "\"" ++ String.join ((CodePoint.points s.toList).map pointText) ++ "\""

/-- What stands between the parts of a document: `break` precedes each item of depth `n`, `gap`
follows the comma. -/
structure Style where
  newline : Nat → String
  gap : String

/-- Everything on one line. -/
def Style.line : Style := ⟨fun _ => "", " "⟩

/-- One item a line, two blanks for each level. -/
def Style.page : Style :=
  ⟨fun depth => "\n" ++ String.ofList (List.replicate (2 * depth) ' '), ""⟩

/-- The name of an entry: a text as it is, another value as it is written itself. -/
def nameText : Value → String
  | .null => "null"
  | .bool true => "true"
  | .bool false => "false"
  | .int n => toString n
  | .double x => x.text Double.documentLayout
  | v => v.shown

mutual
/-- The text of a value whose items stand at depth `depth + 1`. -/
def valueText (style : Style) (depth : Nat) : Value → String
  | .null => "null"
  | .bool true => "true"
  | .bool false => "false"
  | .int n => toString n
  | .double x => x.text Double.documentLayout
  | .string s => stringText s
  | .array [] => "[]"
  | .array (v :: rest) =>
    "[" ++ style.newline (depth + 1) ++ valueText style (depth + 1) v
      ++ itemsText style (depth + 1) rest ++ style.newline depth ++ "]"
  | .object [] => "\x7b\x7d"
  | .object ((k, v) :: rest) =>
    "\x7b" ++ style.newline (depth + 1) ++ stringText k ++ ": " ++ valueText style (depth + 1) v
      ++ membersText style (depth + 1) rest ++ style.newline depth ++ "\x7d"
  | .moment m => stringText m.text
  | .table [] => "\x7b\x7d"
  | .table ((k, v) :: rest) =>
    "\x7b" ++ style.newline (depth + 1) ++ stringText (nameText k) ++ ": "
      ++ valueText style (depth + 1) v ++ entriesText style (depth + 1) rest ++ style.newline depth
      ++ "\x7d"
def itemsText (style : Style) (depth : Nat) : List Value → String
  | [] => ""
  | v :: rest =>
    "," ++ style.gap ++ style.newline depth ++ valueText style depth v
      ++ itemsText style depth rest
def membersText (style : Style) (depth : Nat) : List (String × Value) → String
  | [] => ""
  | (k, v) :: rest =>
    "," ++ style.gap ++ style.newline depth ++ stringText k ++ ": " ++ valueText style depth v
      ++ membersText style depth rest
def entriesText (style : Style) (depth : Nat) : List (Value × Value) → String
  | [] => ""
  | (k, v) :: rest =>
    "," ++ style.gap ++ style.newline depth ++ stringText (nameText k) ++ ": "
      ++ valueText style depth v ++ entriesText style depth rest
end

/-- Whether a value, apart from what is inside it, can be written. -/
def isPlain : Value → Bool
  | .moment _ => false
  | v => v.isShort

end Document

/-- Whether a value can be written: there is no moment in it, nor an integer that is too long. -/
def Value.isWritable (v : Value) : Bool := v.all Document.isPlain

/-- The document on one line. -/
def Value.line (v : Value) : String := Document.valueText .line 0 v

/-- The document with one item a line. -/
def Value.page (v : Value) : String := Document.valueText .page 0 v

end ScimBridge
