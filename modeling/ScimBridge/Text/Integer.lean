import ScimBridge.Json.Shown
import ScimBridge.Text.Blank
import ScimBridge.Text.Classes

/-!
# Whole numbers in requests and settings

A whole number may be written with white space around it (the information separators U+001C to
U+001F excepted), a sign, digits of any script and single underscores between digits. Doubles are
cut towards zero, and truth values count as one and zero.
-/

namespace ScimBridge

/-- The values of digits of any script, with single underscores between them. -/
def digitValues? : List Char → Option (List Nat)
  | [] => none
  | [c] => (decimalDigit? c).map fun d => [d]
  | c :: '_' :: rest =>
    match decimalDigit? c, digitValues? rest with
    | some d, some ds => some (d :: ds)
    | _, _ => none
  | c :: rest =>
    match decimalDigit? c, digitValues? rest with
    | some d, some ds => some (d :: ds)
    | _, _ => none

/-- White space around a number. The four information separators are none here. -/
def isNumberGap (c : Char) : Bool := isBlank c && !(28 ≤ c.toNat && c.toNat ≤ 31)

/-- A text without the white space around a number. -/
def trimNumber (cs : List Char) : List Char :=
  ((cs.dropWhile isNumberGap).reverse.dropWhile isNumberGap).reverse

/-- The number that digits spell. -/
def numberOfDigits (ds : List Nat) : Nat := ds.foldl (fun n d => 10 * n + d) 0

/-- Why a value is no whole number. -/
inductive WholeFault where
  | notANumeral (text : String)
  | tooLong (digits : Nat)
  | notNumeric (kind : String)
  | notANumber
  | infinite
  deriving DecidableEq, Repr

/-- How many characters of a quoted text a message holds. -/
def quotedLimit : Nat := 200

/-- The wording of a value that is no whole number. -/
def WholeFault.message : WholeFault → String
  | .notANumeral text =>
    "invalid literal for int() with base 10: "
      ++ String.ofList ((Text.quoted text).toList.take quotedLimit)
  | .tooLong digits =>
    "Exceeds the limit (" ++ toString maxIntegerDigits
      ++ " digits) for integer string conversion: value has " ++ toString digits
      ++ " digits; use sys.set_int_max_str_digits() to increase the limit"
  | .notNumeric kind =>
    "int() argument must be a string, a bytes-like object or a real number, not '" ++ kind ++ "'"
  | .notANumber => "cannot convert float NaN to integer"
  | .infinite => "cannot convert float infinity to integer"

/-- The whole number that a text spells. -/
def readWhole (s : String) : Except WholeFault Int :=
  let (negative, digits) := match trimNumber s.toList with
    | '-' :: rest => (true, rest)
    | '+' :: rest => (false, rest)
    | rest => (false, rest)
  match digitValues? digits with
  | none => .error (.notANumeral s)
  | some ds =>
    if maxIntegerDigits < ds.length then .error (.tooLong ds.length)
    else
      let n : Int := numberOfDigits ds
      .ok (if negative then -n else n)

/-- The whole number that a value stands for. -/
def Value.toWhole : Value → Except WholeFault Int
  | .bool b => .ok (if b then 1 else 0)
  | .int n => .ok n
  | .double x => match x.truncate? with
    | some n => .ok n
    | none => .error (if x.isNaN then .notANumber else .infinite)
  | .string s => readWhole s
  | v => .error (.notNumeric v.kindName)

end ScimBridge
