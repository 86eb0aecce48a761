import ScimBridge.Json.Fields

/-!
# Names with letters of any script, in ASCII

A name is written as its ASCII characters, a hyphen, and digits that say which other characters stand
where. The others are taken by code point: each number counts the places that are passed over since
the last one, and is written with digits of base 36, the lowest first, whose thresholds depend on the
numbers so far.

Main statement: a digit that is written is read back.
-/

namespace ScimBridge

namespace Punycode

/-- The digits: the letters and then the ten figures. -/
def digitChar (d : Nat) : Char := if d < 26 then Char.ofNat (97 + d) else Char.ofNat (22 + d)

/-- The value of a digit in either case. -/
def digitValue? (c : Char) : Option Nat :=
  let n := c.toNat
  if 97 ≤ n ∧ n ≤ 122 then some (n - 97)
  else if 65 ≤ n ∧ n ≤ 90 then some (n - 65)
  else if 48 ≤ n ∧ n ≤ 57 then some (n - 22)
  else none

theorem digitValue?_digitChar : ∀ d < 36, digitValue? (digitChar d) = some d := by decide

/-- The threshold of a digit: one below it ends a number. -/
def threshold (place bias : Nat) : Nat := min (max (36 * (place + 1) - bias) 1) 26

/-- How often a number is divided by 35 until it is small, in steps of the base, and what is left. -/
def shrink (delta steps : Nat) : Nat × Nat :=
  if 455 < delta then shrink (delta / 35) (steps + 36) else (delta, steps)
termination_by delta
decreasing_by omega

/-- The bias behind a number; `size` is the length of the text so far. -/
def adapt (delta size : Nat) (first : Bool) : Nat :=
  let halved := if first then delta / 700 else delta / 2
  let (rest, steps) := shrink (halved + halved / size) 0
  steps + 36 * rest / (rest + 38)

/-- The digits of a number from a place on. -/
def digits (bias place n : Nat) : List Char :=
  let t := threshold place bias
  if n < t then [digitChar n]
  else digitChar (t + (n - t) % (36 - t)) :: digits bias (place + 1) ((n - t) / (36 - t))
termination_by n
decreasing_by
  have ht : 1 ≤ threshold place bias := by unfold threshold; omega
  have := Nat.div_le_self (n - threshold place bias) (36 - threshold place bias)
  omega

/-- What has been written: the digits, the places passed over, the bias, and how many characters are
done; `basic` is the number of ASCII characters. -/
structure Writing where
  written : List Char := []
  delta : Nat := 0
  bias : Nat := 72
  done : Nat

/-- Pass over one character of the name while the characters of a code point are written. -/
def Writing.pass (basic point : Nat) (w : Writing) (c : Char) : Writing :=
  if c.toNat < point then { w with delta := w.delta + 1 }
  else if c.toNat = point then
    { written := w.written ++ digits w.bias 0 w.delta
      delta := 0
      bias := adapt w.delta (w.done + 1) (w.done == basic)
      done := w.done + 1 }
  else w

/-- Write the characters of one code point after another; `next` is the first code point that has
not been considered. -/
def Writing.all (basic : Nat) (cs : List Char) : List Nat → Nat → Writing → Writing
  | [], _, w => w
  | point :: points, next, w =>
    let w := { w with delta := w.delta + (point - next) * (w.done + 1) }
    let w := cs.foldl (Writing.pass basic point) w
    Writing.all basic cs points (point + 1) { w with delta := w.delta + 1 }

/-- A code point among others in order, if it is new. -/
def insertPoint (n : Nat) : List Nat → List Nat
  | [] => [n]
  | m :: rest => if n < m then n :: m :: rest else if n = m then m :: rest else m :: insertPoint n rest

/-- The written form of a name. -/
def encode (cs : List Char) : List Char :=
  let basic := cs.filter fun c => c.toNat < 128
  let points := (cs.filter fun c => 128 ≤ c.toNat).foldr (fun c ps => insertPoint c.toNat ps) []
  let extended := (Writing.all basic.length cs points 128 { done := basic.length }).written
  if basic.isEmpty then extended else basic ++ '-' :: extended

/-- What has been read: the text, the place of the last insertion and its code point, the bias, and
of the number that is being read its value, the weight of its next digit and the place of that; the
last is 0 where no number has begun. -/
structure Reading where
  text : List Char
  place : Nat := 0
  point : Nat := 128
  bias : Nat := 72
  first : Bool := true
  number : Nat := 0
  weight : Nat := 1
  digit : Nat := 0

/-- Insert a character as a number says. -/
def Reading.insert? (r : Reading) (delta : Nat) : Option Reading :=
  let size := r.text.length + 1
  let place := (r.place + delta) % size
  let point := r.point + (r.place + delta) / size
  if point.isValidChar then
    some
      { text := r.text.take place ++ Char.ofNat point :: r.text.drop place
        place := place + 1
        point
        bias := adapt delta size r.first
        first := false }
  else none

/-- Read one digit. -/
def Reading.step (r : Reading) (c : Char) : Option Reading := do
  let d ← digitValue? c
  let t := threshold r.digit r.bias
  let number := r.number + d * r.weight
  if d < t then r.insert? number
  else return { r with number, weight := r.weight * (36 - t), digit := r.digit + 1 }

/-- The name that a written form stands for. -/
def decode? (cs : List Char) : Option (List Char) := do
  let extended := (cs.reverse.takeWhile (· ≠ '-')).reverse
  let basic := cs.take (cs.length - extended.length - 1)
  let r ← extended.foldlM Reading.step { text := basic }
  if r.digit = 0 then return r.text else none

end Punycode

end ScimBridge
