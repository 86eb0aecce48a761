import ScimBridge.Json.Token
import ScimBridge.Text.Blank
import ScimBridge.Text.Split

/-!
# Addresses and networks

Internet addresses of both families and the networks that a deployment trusts. An address is a
number of 32 or 128 bits. A network is an address whose host bits are zero and the number of the
bits that it fixes.

Main statements: a network holds its own address, holds addresses of its own family only, and its
address has no host bits.
-/

namespace ScimBridge

namespace Net

/-- The two families of addresses. -/
inductive Family where
  | v4
  | v6
  deriving DecidableEq, Repr

/-- The number of bits of an address. -/
def Family.width : Family → Nat
  | .v4 => 32
  | .v6 => 128

/-- An address. The zone names a link and has no part in comparisons. -/
structure Address where
  family : Family
  value : Nat
  zone : Option String := none
  deriving DecidableEq, Repr

/-- The first `length` bits of a value; the others are zero. -/
def keepBits (family : Family) (length value : Nat) : Nat :=
  value >>> (family.width - length) <<< (family.width - length)

/-- A network: the addresses that begin with the first `length` bits of its own. -/
structure Network where
  address : Address
  length : Nat
  deriving DecidableEq, Repr

/-! ## Reading addresses -/

/-- The number that a text of digits spells. -/
def decimal? (digits : List Char) : Option Nat :=
  if digits ≠ [] ∧ digits.all Char.isDigit then
    some (digits.foldl (fun n c => 10 * n + (c.toNat - '0'.toNat)) 0)
  else none

/-- One of the four numbers of an address: no leading zeros, at most three digits, at most 255. -/
def octet? (digits : List Char) : Option Nat :=
  if 3 < digits.length ∨ (1 < digits.length ∧ digits.head? = some '0') then none
  else (decimal? digits).filter (· ≤ 255)

/-- The value of four numbers between points. -/
def dotted? (cs : List Char) : Option Nat := do
  match ← (cutAt '.' cs).mapM octet? with
  | [a, b, c, d] => some (((a * 256 + b) * 256 + c) * 256 + d)
  | _ => none

/-- A group of one to four hexadecimal digits. -/
def group? (digits : List Char) : Option Nat :=
  if digits.length < 1 ∨ 4 < digits.length then none
  else do
    let values ← digits.mapM Document.hexValue?
    return values.foldl (fun n d => 16 * n + d) 0

/-- The parts between colons, where a dotted address at the end counts as two groups. -/
def groupTexts? (cs : List Char) : Option (List (List Char)) :=
  let parts := cutAt ':' cs
  match parts.getLast? with
  | some final =>
    if final.contains '.' then
      (dotted? final).map fun n =>
        parts.dropLast ++ [Nat.toDigits 16 (n / 65536), Nat.toDigits 16 (n % 65536)]
    else some parts
  | none => some parts

/-- The groups of a part of an address that ends where zeros were left out. -/
def groups? (parts : List (List Char)) : Option (List Nat) :=
  if parts = [[]] then some [] else parts.mapM group?

/-- The eight groups of an address. Between its first and its last part at most one may be empty: it
stands for as many groups of zeros as are missing, and for at least one. -/
def hextets? (parts : List (List Char)) : Option (List Nat) := do
  let first ← parts.head?
  let hi := first :: parts.tail.takeWhile (· ≠ [])
  match parts.drop hi.length with
  | [] => (hi.mapM group?).filter (·.length = 8)
  | [_] => none
  | _ :: lo =>
    if lo.dropLast.contains [] then none
    else
      let before ← groups? hi
      let behind ← groups? lo
      let missing := 8 - (before.length + behind.length)
      if missing = 0 then none
      else some (before ++ List.replicate missing 0 ++ behind)

/-- The number made of 16-bit groups. -/
def ofGroups (groups : List Nat) : Nat := groups.foldl (fun n g => 65536 * n + g) 0

/-- The zone behind a percent sign, which may be absent but not empty. -/
def zone? (cs : List Char) : Option (List Char × Option String) :=
  match cutAt '%' cs with
  | [address] => some (address, none)
  | [address, zone] => if zone = [] then none else some (address, some (String.ofList zone))
  | _ => none

/-- An address of a family. -/
def Address.ofText? (family : Family) (s : String) : Option Address :=
  match family with
  | .v4 => (dotted? s.toList).map fun value => { family := .v4, value }
  | .v6 => do
    if s.toList.contains '/' then none
    let (cs, zone) ← zone? s.toList
    let groups ← hextets? (← groupTexts? cs)
    return { family := .v6, value := ofGroups groups, zone }

/-- An address of any family. -/
def Address.read? (s : String) : Option Address :=
  (Address.ofText? .v4 s).or (Address.ofText? .v6 s)

/-! ## Reading networks -/

/-- The last address of the short family. -/
def lastValue : Nat := 4294967295

/-- The number of ones that a mask begins with, if it has no other ones. -/
def maskLength? (mask : Nat) : Option Nat :=
  (List.range 33).find? fun n => keepBits .v4 n lastValue == mask

/-- The number of fixed bits: a number or, for the short family, a mask of the fixed or of the other
bits. -/
def length? (family : Family) (s : List Char) : Option Nat :=
  match decimal? s, family with
  | some n, _ => if n ≤ family.width then some n else none
  | none, .v4 => do
    let mask ← dotted? s
    (maskLength? mask).or (maskLength? (lastValue - mask))
  | none, .v6 => none

/-- The network of an address; a zone is kept only if there are no host bits. -/
def Network.ofAddress (a : Address) (length : Nat) : Network :=
  let value := keepBits a.family length a.value
  if value = a.value then ⟨a, length⟩ else ⟨{ family := a.family, value }, length⟩

/-- A network of a family: an address, or an address and a length with a slash between them. -/
def Network.ofText? (family : Family) (s : String) : Option Network :=
  match cutText '/' s with
  | [address] => (Address.ofText? family address).map (Network.ofAddress · family.width)
  | [address, length] => do
    let a ← Address.ofText? family address
    let n ← length? family length.toList
    return Network.ofAddress a n
  | _ => none

/-- A network of any family. -/
def Network.read? (s : String) : Option Network :=
  (Network.ofText? .v4 s).or (Network.ofText? .v6 s)

/-- The networks of a list with commas; entries that are no networks do not count. -/
def Network.listOf (s : String) : List Network :=
  (cutText ',' s).filterMap fun entry => Network.read? (trimText entry)

/-- Whether an address lies in a network. -/
def Network.holds (n : Network) (a : Address) : Bool :=
  a.family == n.address.family && keepBits a.family n.length a.value == n.address.value

/-! ## Writing -/

/-- Four numbers between points. -/
def dottedText (value : Nat) : String :=
  ".".intercalate ([16777216, 65536, 256, 1].map fun unit => toString (value / unit % 256))

/-- The eight groups of a value. -/
def groupsOf (value : Nat) : List Nat :=
  (List.range 8).map fun i => value >>> (16 * (7 - i)) % 65536

/-- How many zeros stand in a row from a place on. -/
def zerosFrom (groups : List Nat) (place : Nat) : Nat :=
  ((groups.drop place).takeWhile (· == 0)).length

/-- The place of the longest row of zeros, the first one of several. -/
def longestZeros (groups : List Nat) : Nat :=
  (List.range groups.length).foldl
    (fun best place => if zerosFrom groups best < zerosFrom groups place then place else best) 0

/-- Groups between colons. -/
def colonText (groups : List Nat) : String :=
  ":".intercalate (groups.map fun g => String.ofList (Nat.toDigits 16 g))

/-- Eight groups between colons, where the longest row of two or more zeros is left out. -/
def groupsText (groups : List Nat) : String :=
  let place := longestZeros groups
  let size := zerosFrom groups place
  if size < 2 then colonText groups
  else colonText (groups.take place) ++ "::" ++ colonText (groups.drop (place + size))

/-- The text of an address. -/
def Address.text (a : Address) : String :=
  let value := match a.family with
    | .v4 => dottedText a.value
    | .v6 => groupsText (groupsOf a.value)
  value ++ ((a.zone.map fun zone => "%" ++ zone).getD "")

/-- The text of a network. -/
def Network.text (n : Network) : String := n.address.text ++ "/" ++ toString n.length

/-! ## Laws -/

theorem keepBits_keepBits (family : Family) (length value : Nat) :
    keepBits family length (keepBits family length value) = keepBits family length value := by
  unfold keepBits
  rw [Nat.shiftLeft_shiftRight]

theorem ofAddress_family (a : Address) (length : Nat) :
    (Network.ofAddress a length).address.family = a.family := by
  unfold Network.ofAddress
  dsimp only
  split <;> rfl

theorem ofAddress_length (a : Address) (length : Nat) :
    (Network.ofAddress a length).length = length := by
  unfold Network.ofAddress
  dsimp only
  split <;> rfl

/-- The address of a network has no host bits. -/
theorem ofAddress_value (a : Address) (length : Nat) :
    (Network.ofAddress a length).address.value = keepBits a.family length a.value := by
  unfold Network.ofAddress
  dsimp only
  split
  · rename_i h; exact h.symm
  · rfl

/-- The network of an address holds it. -/
theorem holds_ofAddress (a : Address) (length : Nat) :
    (Network.ofAddress a length).holds a = true := by
  simp [Network.holds, ofAddress_family, ofAddress_length, ofAddress_value]

/-- A network holds addresses of its own family only. -/
theorem family_eq_of_holds {n : Network} {a : Address} (h : n.holds a = true) :
    a.family = n.address.family := by
  simp only [Network.holds, Bool.and_eq_true, beq_iff_eq] at h
  exact h.1

end Net

end ScimBridge
