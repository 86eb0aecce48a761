/-!
# Double precision numbers

A number of the binary64 format, kept as its 64 bits. Reading a decimal rounds to the nearest
number, a tie to the even neighbour; the value of a finite number is exact: an integer times a power
of two.
-/

namespace ScimBridge

/-- A binary64 number by its bits. -/
structure Double where
  bits : UInt64
  deriving DecidableEq

namespace Double

/-- The bit in front of the 52 bits of a significand that are kept. -/
def leadingBit : Nat := 1 <<< 52

/-- The bit of the sign. -/
def signBit : Nat := 1 <<< 63

/-- A power of ten. -/
def tenTo (k : Nat) : Nat := Nat.pow 10 k

/-- The quotient rounded to the nearest integer, a half to the even neighbour. -/
def roundHalfEven (num den : Nat) : Nat :=
  let q := num / den
  let twice := 2 * (num % den)
  if twice < den then q
  else if den < twice then q + 1
  else if q % 2 = 0 then q else q + 1

/-- The quotient `num / den` scaled down by `2 ^ q`, as a numerator and a denominator. -/
def scaleDown (num den : Nat) (q : Int) : Nat × Nat :=
  match q with
  | .ofNat k => (num, den <<< k)
  | .negSucc k => (num <<< (k + 1), den)

/-- The bits of the positive infinity: the first pattern behind the finite numbers. -/
def infinityBits : Nat := 2047 * leadingBit

/-- The bits, without the sign, of the number nearest to `num / den`. The pattern of a number with
significand `m` and exponent `q` is `(q + 1074) * 2 ^ 52 + m`, also for the subnormal ones and after
a carry out of the significand. -/
def nearestBits (num den : Nat) : Nat :=
  if num = 0 then 0
  else
    let guess : Int := max ((num.log2 : Int) - (den.log2 : Int) - 52) (-1074)
    let (n, d) := scaleDown num den guess
    let q : Int := if n / d < leadingBit ∧ -1074 < guess then guess - 1 else guess
    let (n, d) := scaleDown num den q
    min ((q + 1074).toNat * leadingBit + roundHalfEven n d) infinityBits

/-- How many decimal digits a number has; 0 has none. -/
def decimalLength (n : Nat) : Nat :=
  if n = 0 then 0 else decimalLength (n / 10) + 1

/-- The number nearest to `digits * 10 ^ exponent`. Beyond the range of the format the result is an
infinity, far below it a zero; both are decided before the power is computed. -/
def ofDecimal (negative : Bool) (digits : Nat) (exponent : Int) : Double :=
  let place : Int := decimalLength digits + exponent
  let magnitude :=
    if digits = 0 ∨ place < -330 then 0
    else if 330 < place then infinityBits
    else match exponent with
      | .ofNat k => nearestBits (digits * tenTo k) 1
      | .negSucc k => nearestBits digits (tenTo (k + 1))
  ⟨UInt64.ofNat (if negative then magnitude + signBit else magnitude)⟩

/-- Whether the sign bit is set. -/
def isNegative (x : Double) : Bool := decide (signBit ≤ x.bits.toNat)

/-- The bits without the sign. -/
def magnitude (x : Double) : Nat := x.bits.toNat % signBit

/-- Neither infinite nor not a number. -/
def isFinite (x : Double) : Bool := decide (x.magnitude < infinityBits)

/-- Not a number. -/
def isNaN (x : Double) : Bool := decide (infinityBits < x.magnitude)

/-- Either of the two zeros. -/
def isZero (x : Double) : Bool := x.magnitude == 0

/-- Significand and binary exponent of the magnitude of a finite number. -/
def decompose (x : Double) : Nat × Int :=
  let fraction := x.magnitude % leadingBit
  match x.magnitude / leadingBit with
  | 0 => (fraction, -1074)
  | e + 1 => (fraction + leadingBit, (e : Int) - 1074)

/-- The integer part of a finite number, cut towards zero. -/
def truncate? (x : Double) : Option Int :=
  if x.isFinite then
    let (m, q) := x.decompose
    let whole : Nat := match q with
      | .ofNat k => m <<< k
      | .negSucc k => m >>> (k + 1)
    some (if x.isNegative then -(whole : Int) else whole)
  else none

/-- Whether a number is a given integer. -/
def isWhole (x : Double) (n : Int) : Bool :=
  let (m, q) := x.decompose
  let signed (k : Nat) : Int := if x.isNegative then -(k : Int) else k
  x.isFinite && match q with
    | .ofNat k => signed (m <<< k) == n
    | .negSucc k => m % (1 <<< (k + 1)) == 0 && signed (m >>> (k + 1)) == n

/-- Whether two numbers are the same: the zeros are, and what is not a number is no number's same.
-/
def equals (x y : Double) : Bool :=
  !x.isNaN && !y.isNaN && (x.bits == y.bits || (x.isZero && y.isZero))

/-- The number nearest to the sum of the magnitude of a finite number and an integer. -/
def plus (x : Double) (n : Nat) : Double :=
  let (m, q) := x.decompose
  ⟨UInt64.ofNat (match q with
    | .ofNat k => nearestBits ((m <<< k) + n) 1
    | .negSucc k => nearestBits (m + (n <<< (k + 1))) (1 <<< (k + 1)))⟩

/-- Whether a number is below one. -/
def isBelowOne (x : Double) : Bool := x.isNegative || decide (x.magnitude < 1023 * leadingBit)

/-- The number nearest to one less than a number that is not below one. -/
def less1 (x : Double) : Double :=
  let (m, q) := x.decompose
  if x.isFinite then
    ⟨UInt64.ofNat (match q with
      | .ofNat k => nearestBits ((m <<< k) - 1) 1
      | .negSucc k => nearestBits (m - (1 <<< (k + 1))) (1 <<< (k + 1)))⟩
  else x

/-- The number with its sign changed. -/
def negate (x : Double) : Double :=
  ⟨UInt64.ofNat (if x.isNegative then x.magnitude else x.magnitude + signBit)⟩

/-- The infinity with the given sign. -/
def infinity (negative : Bool) : Double :=
  ⟨UInt64.ofNat (if negative then infinityBits + signBit else infinityBits)⟩

/-- The quiet number that is not a number. -/
def nan : Double := ⟨UInt64.ofNat (infinityBits + leadingBit / 2)⟩

end Double

end ScimBridge
