import ScimBridge.Decimal.Double

/-!
# The shortest decimal of a double

The decimals that read back as a finite number form an interval around it, which holds its own end
points iff the significand is even. Grids of one, two, … seventeen significant digits are tried in
turn; on each one only the two neighbours of the number can lie in the interval. The first grid with
a hit gives the digits, and of two hits the nearer one, on a tie the even one.
-/

namespace ScimBridge

namespace Double

/-- A positive rational number as numerator and denominator. -/
structure Ratio where
  num : Nat
  den : Nat

namespace Ratio

/-- The number `m * 2 ^ q`. -/
def ofBinary (m : Nat) (q : Int) : Ratio :=
  match q with
  | .ofNat k => ⟨m <<< k, 1⟩
  | .negSucc k => ⟨m, 1 <<< (k + 1)⟩

/-- The number `m * 10 ^ e`. -/
def ofDecimal (m : Nat) (e : Int) : Ratio :=
  match e with
  | .ofNat k => ⟨m * tenTo k, 1⟩
  | .negSucc k => ⟨m, tenTo (k + 1)⟩

/-- Strictly below, by cross multiplication. -/
def lt (a b : Ratio) : Bool := decide (a.num * b.den < b.num * a.den)

/-- Below or equal, by cross multiplication. -/
def le (a b : Ratio) : Bool := decide (a.num * b.den ≤ b.num * a.den)

/-- The integer part of `r / 10 ^ e`. -/
def gridFloor (r : Ratio) (e : Int) : Nat :=
  match e with
  | .ofNat k => r.num / (r.den * tenTo k)
  | .negSucc k => r.num * tenTo (k + 1) / r.den

/-- The power of ten of the leading digit. The numbers met here are at least `10 ^ (-400)`. -/
def leadingPlace (r : Ratio) : Int :=
  (decimalLength (r.num * tenTo 400 / r.den) : Int) - 401

end Ratio

/-- The open or closed interval of the reals that round to `m * 2 ^ q`, with the value itself. -/
structure Interval where
  low : Ratio
  value : Ratio
  high : Ratio
  closed : Bool

/-- The gap below a power of two is half the gap above it, the smallest exponent excepted. -/
def Interval.around (m : Nat) (q : Int) : Interval :=
  let below := if m = leadingBit ∧ -1074 < q then 4 * m - 1 else 4 * m - 2
  { low := .ofBinary below (q - 2)
    value := .ofBinary (4 * m) (q - 2)
    high := .ofBinary (4 * m + 2) (q - 2)
    closed := m % 2 == 0 }

/-- Whether a decimal reads back as the number in the middle. -/
def Interval.holds (i : Interval) (r : Ratio) : Bool :=
  if i.closed then i.low.le r && r.le i.high else i.low.lt r && r.lt i.high

/-- Whether the value is nearer to the grid point `a` than to `a + 1`, a tie going to the even. -/
def Interval.prefersLower (i : Interval) (a : Nat) (e : Int) : Bool :=
  let middle := Ratio.ofDecimal (5 * (2 * a + 1)) (e - 1)
  i.value.lt middle || (i.value.le middle && a % 2 == 0)

/-- The grid point with exponent `e` that reads back, if there is one. -/
def Interval.onGrid (i : Interval) (e : Int) : Option Nat :=
  let a := i.value.gridFloor e
  match i.holds (.ofDecimal a e), i.holds (.ofDecimal (a + 1) e) with
  | true, true => some (if i.prefersLower a e then a else a + 1)
  | true, false => some a
  | false, true => some (a + 1)
  | false, false => none

/-- The first grid with a hit among those of exponent `top`, `top - 1`, …: at most `count` grids. -/
def Interval.search (i : Interval) (top : Int) : Nat → Nat × Int
  | 0 => (i.value.gridFloor top, top)
  | count + 1 =>
    match i.onGrid top with
    | some a => (a, top)
    | none => i.search (top - 1) count

/-- Digits and exponent without zeros at the end of the digits. -/
def dropZeros (digits : Nat) (e : Int) : Nat × Int :=
  if h : digits ≠ 0 ∧ digits % 10 = 0 then dropZeros (digits / 10) (e + 1) else (digits, e)
termination_by digits
decreasing_by omega

/-- The shortest digits, and their exponent, that read back as the magnitude of a finite nonzero
number. -/
def shortest (x : Double) : Nat × Int :=
  let (m, q) := x.decompose
  let i := Interval.around m q
  let (digits, e) := i.search i.value.leadingPlace 17
  dropZeros digits e

/-- How the text of a double is laid out. -/
structure Layout where
  /-- The first power of ten of the leading digit that is written with an exponent. -/
  exponentFrom : Int
  /-- The last power of ten of the leading digit, going down, that is written out. -/
  writtenDownTo : Int
  infinity : String
  notANumber : String

/-- Zeros in front up to four places and none behind up to sixteen; whole numbers end in `.0`; an
exponent has a sign and two digits. -/
def plainLayout : Layout :=
  { exponentFrom := 16, writtenDownTo := -4, infinity := "inf", notANumber := "nan" }

/-- The layout inside a document: as `plainLayout` but with the document names of the
numbers that are not finite. -/
def documentLayout : Layout :=
  { plainLayout with infinity := "Infinity", notANumber := "NaN" }

/-- An exponent with its sign and at least two digits. -/
def exponentText (e : Int) : String :=
  let digits := toString e.natAbs
  (if e < 0 then "-" else "+") ++ (if e.natAbs < 10 then "0" ++ digits else digits)

/-- The text of digits whose last one stands for `10 ^ e`. -/
def Layout.digitsText (layout : Layout) (digits : Nat) (e : Int) : String :=
  let ds := (toString digits).toList
  let place : Int := e + ds.length - 1
  if place < layout.writtenDownTo ∨ layout.exponentFrom ≤ place then
    let head := String.ofList (ds.take 1)
    let tail := String.ofList (ds.drop 1)
    (if tail = "" then head else head ++ "." ++ tail) ++ "e" ++ exponentText place
  else if place < 0 then
    "0." ++ String.ofList (List.replicate (-place - 1).toNat '0' ++ ds)
  else if 0 ≤ e then
    String.ofList (ds ++ List.replicate e.toNat '0') ++ ".0"
  else
    let whole := place.toNat + 1
    String.ofList (ds.take whole) ++ "." ++ String.ofList (ds.drop whole)

/-- The text of a double. -/
def text (layout : Layout) (x : Double) : String :=
  if x.isNaN then layout.notANumber
  else
    let body :=
      if !x.isFinite then layout.infinity
      else if x.isZero then "0.0"
      else
        let (digits, e) := x.shortest
        layout.digitsText digits e
    if x.isNegative then "-" ++ body else body

end Double

end ScimBridge
