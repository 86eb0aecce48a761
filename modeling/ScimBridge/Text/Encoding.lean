import ScimBridge.Json.Token

/-!
# Encodings of documents

A document that is sent as bytes says by its first four bytes how it is encoded: its first character
is ASCII, so the places of the zero bytes show the width of a unit and the order of its bytes.

Main statement: units that are read are as many as the bytes allow.
-/

namespace ScimBridge

/-- An encoding of texts as bytes. -/
inductive Encoding where
  | utf8
  | utf16 (bigEndian : Bool)
  | utf32 (bigEndian : Bool)
  deriving DecidableEq, Repr

namespace Encoding

/-- The encoding that the first bytes of a document show. -/
def ofFirstBytes (bytes : List UInt8) : Encoding :=
  match bytes with
  | [0, _] => .utf16 true
  | [_, 0] => .utf16 false
  | 0 :: b :: _ :: _ :: _ => if b = 0 then .utf32 true else .utf16 true
  | _ :: 0 :: c :: d :: _ => if c = 0 ∧ d = 0 then .utf32 false else .utf16 false
  | _ => .utf8

/-- The number of bytes in a unit. -/
def width : Encoding → Nat
  | .utf8 => 1
  | .utf16 _ => 2
  | .utf32 _ => 4

/-- The number that the bytes of a unit spell. -/
def unitValue (bigEndian : Bool) (bytes : List UInt8) : Nat :=
  (if bigEndian then bytes else bytes.reverse).foldl (fun n b => 256 * n + b.toNat) 0

/-- The units of two bytes; none if a byte is left over. -/
def pairs? (bigEndian : Bool) : List UInt8 → Option (List Nat)
  | [] => some []
  | a :: b :: rest => (pairs? bigEndian rest).map (unitValue bigEndian [a, b] :: ·)
  | _ => none

/-- The units of four bytes; none if bytes are left over. -/
def quads? (bigEndian : Bool) : List UInt8 → Option (List Nat)
  | [] => some []
  | a :: b :: c :: d :: rest => (quads? bigEndian rest).map (unitValue bigEndian [a, b, c, d] :: ·)
  | _ => none

theorem length_pairs {bigEndian : Bool} {bytes : List UInt8} {units : List Nat}
    (h : pairs? bigEndian bytes = some units) : bytes.length = 2 * units.length := by
  fun_induction pairs? bigEndian bytes generalizing units with
  | case1 => simp_all
  | case2 a b rest ih =>
    obtain ⟨us, hu, rfl⟩ := Option.map_eq_some_iff.1 h
    have := ih hu
    simp only [List.length_cons]
    omega
  | case3 => simp at h

/-- The text of code points, each of which has to be one below the end of the code. -/
def textOfPoints? (points : List Nat) : Option String :=
  if points.all (· < CodePoint.limit) then some (CodePoint.textOf points) else none

/-- The text that bytes spell; `text` is the one that they spell as UTF-8. Only units of two bytes
can be halves of a pair. -/
def decode? (e : Encoding) (bytes : List UInt8) (text : String) : Option String :=
  match e with
  | .utf8 => some text
  | .utf16 bigEndian =>
    (pairs? bigEndian bytes).map fun units => String.ofList (Document.charsOfUnits units)
  | .utf32 bigEndian => (quads? bigEndian bytes).bind textOfPoints?

end Encoding

end ScimBridge
