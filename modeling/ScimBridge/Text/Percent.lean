import ScimBridge.Json.Token
import ScimBridge.Json.Shown

/-!
# Percent signs in addresses

Addresses write a byte as a percent sign and two hexadecimal digits. Texts become bytes and bytes
become texts as UTF-8; where bytes are no UTF-8, each longest piece that could still have become a
character is repaired as a whole.

Main statement: bytes that were written with percent signs are read back.
-/

namespace ScimBridge

namespace Percent

/-! ## UTF-8 -/

/-- How a character goes on behind its first byte: the number of bytes that follow, and the bounds
of the first of them. -/
def followers? (b : UInt8) : Option (Nat × UInt8 × UInt8) :=
  if b < 0x80 then some (0, 0x80, 0xBF)
  else if b < 0xC2 then none
  else if b < 0xE0 then some (1, 0x80, 0xBF)
  else if b = 0xE0 then some (2, 0xA0, 0xBF)
  else if b = 0xED then some (2, 0x80, 0x9F)
  else if b < 0xF0 then some (2, 0x80, 0xBF)
  else if b = 0xF0 then some (3, 0x90, 0xBF)
  else if b < 0xF4 then some (3, 0x80, 0xBF)
  else if b = 0xF4 then some (3, 0x80, 0x8F)
  else none

/-- At most `n` bytes from the front, the first within bounds and the others continuing it. -/
def takeFollowers : Nat → UInt8 → UInt8 → List UInt8 → List UInt8
  | 0, _, _, _ => []
  | _, _, _, [] => []
  | n + 1, lo, hi, b :: bs =>
    if lo ≤ b ∧ b ≤ hi then b :: takeFollowers n 0x80 0xBF bs else []

/-- The character of a first byte and the bytes that follow it. -/
def charOfBytes (b : UInt8) (following : List UInt8) : Char :=
  let first := match following.length with
    | 0 => b.toNat
    | 1 => b.toNat % 32
    | 2 => b.toNat % 16
    | _ => b.toNat % 8
  Char.ofNat (following.foldl (fun n b => 64 * n + b.toNat % 64) first)

/-- The text of bytes. Pieces that are no character are repaired. -/
def charsOfBytes (repair : List UInt8 → List Char) : List UInt8 → List Char
  | [] => []
  | b :: rest =>
    match followers? b with
    | none => repair [b] ++ charsOfBytes repair rest
    | some (n, lo, hi) =>
      let following := takeFollowers n lo hi rest
      let behind := rest.drop following.length
      if following.length = n then
        CodePoint.spelling (charOfBytes b following).toNat ++ charsOfBytes repair behind
      else repair (b :: following) ++ charsOfBytes repair behind
termination_by bytes => bytes.length
decreasing_by all_goals simp only [List.length_cons, List.length_drop]; omega

/-- The bytes of a text. -/
def bytesOfChars (cs : List Char) : List UInt8 :=
  (CodePoint.replaced cs).flatMap String.utf8EncodeChar

/-! ## Reading and writing percent signs -/

/-- The bytes of plain characters among which percent signs stand for bytes. A percent sign without
two digits stands for itself. -/
def readBytes : List Char → List UInt8
  | '%' :: a :: b :: rest =>
    match Document.hexValue? a, Document.hexValue? b with
    | some hi, some lo => UInt8.ofNat (16 * hi + lo) :: readBytes rest
    | _, _ => String.utf8EncodeChar '%' ++ readBytes (a :: b :: rest)
  | c :: rest => String.utf8EncodeChar c ++ readBytes rest
  | [] => []

/-- A percent sign and the two digits of a byte. -/
def byteText (b : UInt8) : List Char :=
  let digit (n : Nat) := (Nat.digitChar n).toUpper
  ['%', digit (b.toNat / 16), digit (b.toNat % 16)]

/-- Pieces that are no character become the replacement character. -/
def replacing : List UInt8 → List Char := fun _ => ['\uFFFD']

/-- Pieces that are no character keep their percent signs. -/
def keeping (bytes : List UInt8) : List Char := bytes.flatMap byteText

/-- The text behind percent signs. -/
def decode (repair : List UInt8 → List Char) (cs : List Char) : List Char :=
  charsOfBytes repair (readBytes (CodePoint.replaced cs))

/-- The text behind percent signs, of which those stay that stand for given ASCII characters. -/
def decodeBut (kept : List Char) (cs : List Char) : List Char :=
  let rec go (front : List Char) : List Char → List Char
    | '%' :: a :: b :: rest =>
      match Document.hexValue? a, Document.hexValue? b with
      | some hi, some lo =>
        if kept.contains (Char.ofNat (16 * hi + lo)) then
          decode keeping front.reverse ++ '%' :: a :: b :: go [] rest
        else go (b :: a :: '%' :: front) rest
      | _, _ => go ('%' :: front) (a :: b :: rest)
    | c :: rest => go (c :: front) rest
    | [] => decode keeping front.reverse
  go [] cs

/-- Characters that never need a percent sign. -/
def isPlain (c : Char) : Bool := c.isAlphanum || "_.-~".toList.contains c

/-- The text with percent signs for all characters but plain ones and those of a given list. -/
def encode (kept : List Char) (cs : List Char) : List Char :=
  (CodePoint.replaced cs).flatMap fun c =>
    if isPlain c || kept.contains c then [c] else (String.utf8EncodeChar c).flatMap byteText

theorem hexValue?_digitChar :
    ∀ n < 16, Document.hexValue? (Nat.digitChar n).toUpper = some n := by decide

/-- A byte that was written is read back. -/
theorem readBytes_byteText (b : UInt8) (rest : List Char) :
    readBytes (byteText b ++ rest) = b :: readBytes rest := by
  have hb : b.toNat < 256 := UInt8.toNat_lt b
  simp only [byteText, List.cons_append, List.nil_append, readBytes,
    hexValue?_digitChar _ (show b.toNat / 16 < 16 by omega),
    hexValue?_digitChar _ (show b.toNat % 16 < 16 by omega)]
  rw [Nat.div_add_mod, UInt8.ofNat_toNat]

/-- Bytes that were written are read back. -/
theorem readBytes_keeping (bytes : List UInt8) : readBytes (keeping bytes) = bytes := by
  induction bytes with
  | nil => rfl
  | cons b bytes ih =>
    have h : keeping (b :: bytes) = byteText b ++ keeping bytes := by simp [keeping]
    rw [h, readBytes_byteText, ih]

end Percent

end ScimBridge
