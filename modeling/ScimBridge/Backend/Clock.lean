import ScimBridge.Text.Integer

/-!
# Instants

Points in time are counted in microseconds from the start of the service, the beginning of the year
2025. Dates end with the year 9999, so a deadline beyond it cannot be represented.
-/

namespace ScimBridge

/-- Microseconds from the start of the service. -/
abbrev Instant := Int

namespace Instant

/-- The number of microseconds in a second. -/
def perSecond : Int := 1000000

/-- The first instant behind the year 9999. -/
def end9999 : Instant := 251666611200 * perSecond

/-- The first instant of the year 1. -/
def begin1 : Instant := -63871286400 * perSecond

/-- Why a span leads to no instant. -/
inductive SpanFault where
  | immense
  | tooLong (days : Int)
  | outOfCalendar
  deriving DecidableEq, Repr

/-- The wording of a span that leads nowhere. -/
def SpanFault.message : SpanFault → String
  | .immense => "Python int too large to convert to C int"
  | .tooLong days => "days=" ++ toString days ++ "; must have magnitude <= 999999999"
  | .outOfCalendar => "date value out of range"

/-- The number of microseconds in a day. -/
def perDay : Int := 86400 * perSecond

/-- The most days of a span, either way. -/
def maxDays : Int := 999999999

/-- Counts of days from here on are not even looked at. -/
def immenseDays : Int := 2147483648

/-- The instant a number of microseconds later, if there is one. -/
def after (t : Instant) (span : Int) : Except SpanFault Instant :=
  let days := Int.fdiv span perDay
  if days < -immenseDays ∨ immenseDays ≤ days then .error .immense
  else if days < -maxDays ∨ maxDays < days then .error (.tooLong days)
  else if begin1 ≤ t + span ∧ t + span < end9999 then .ok (t + span)
  else .error .outOfCalendar

/-- A fraction of a second, as a significand and a binary exponent, in microseconds: the product is
rounded to the nearest double and that to the nearest integer, each time a half to the even one. -/
def microsOf (m : Nat) (k : Nat) : Nat :=
  let product : Double := ⟨UInt64.ofNat (Double.nearestBits (m * 1000000) (1 <<< k))⟩
  let (n, q) := product.decompose
  match q with
  | .ofNat j => n <<< j
  | .negSucc j => Double.roundHalfEven n (1 <<< (j + 1))

/-- The microseconds of a number of seconds. -/
def spanOf : Value → Except WholeFault Int
  | .bool b => .ok (if b then perSecond else 0)
  | .int n => .ok (n * perSecond)
  | .double x =>
    if x.isFinite then
      let (m, q) := x.decompose
      let micros : Nat := match q with
        | .ofNat k => m <<< k * 1000000
        | .negSucc k =>
          let unit := 1 <<< (k + 1)
          m / unit * 1000000 + microsOf (m % unit) (k + 1)
      .ok (if x.isNegative then -(micros : Int) else micros)
    else .error (if x.isNaN then .notANumber else .infinite)
  | v => .error (.notNumeric v.kindName)

end Instant

end ScimBridge
