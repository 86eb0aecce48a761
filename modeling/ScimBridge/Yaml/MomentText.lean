import ScimBridge.Json.Reader
import ScimBridge.Text.Split

/-!
# Texts of moments

A plain scalar may spell a day, or a day with the time of day and perhaps the distance of its time
zone. A scalar that is spelled like a moment, but names a day or a time that there is not, is
refused.

Main statement: a moment that is read is one that there is.
-/

namespace ScimBridge

namespace Yaml

namespace MomentText

/-- The number that the first digits spell, as many as are allowed, and what follows them. -/
def number? (least most : Nat) (cs : List Char) : Option (Nat × List Char) :=
  let digits := (cs.takeWhile Char.isDigit).take most
  if digits.length < least then none
  else some (Document.digitsValue digits, cs.drop digits.length)

/-- The fraction of a second in millionths; what is beyond them falls away. -/
def fraction (cs : List Char) : Nat × List Char :=
  match cs with
  | '.' :: rest =>
    let digits := rest.takeWhile Char.isDigit
    (Document.digitsValue ((digits ++ List.replicate 6 '0').take 6), rest.drop digits.length)
  | _ => (0, cs)

/-- The distance of a time zone, with which a moment ends. -/
def zone? (cs : List Char) : Option (Option Int) :=
  if cs.isEmpty then some none
  else match cs.dropWhile fun c => c == ' ' || c == '\t' with
    | [] => none
    | ['Z'] => some (some 0)
    | sign :: rest => do
      if sign != '+' && sign != '-' then none
      let (hours, rest) ← number? 1 2 rest
      let minutes ← match rest with
        | [] => some 0
        | ':' :: rest => match number? 2 2 rest with
          | some (n, []) => some n
          | _ => none
        | _ => none
      let distance : Int := 60 * hours + minutes
      some (some (if sign == '-' then -distance else distance))

/-- A time of day, to the end of a text. -/
def time? (cs : List Char) : Option TimeOfDay := do
  let (hour, rest) ← number? 1 2 cs
  let (minute, rest) ← number? 2 2 (← after? [':'] rest)
  let (second, rest) ← number? 2 2 (← after? [':'] rest)
  let (micros, rest) := fraction rest
  return ⟨hour, minute, second, micros, ← zone? rest⟩

/-- What stands between a day and a time of day: a letter, or blanks. -/
def timeBehind? (cs : List Char) : Option (List Char) :=
  match cs with
  | 'T' :: rest => some rest
  | 't' :: rest => some rest
  | c :: rest =>
    if c == ' ' || c == '\t' then some (rest.dropWhile fun c => c == ' ' || c == '\t') else none
  | [] => none

/-- How long a day is that stands alone. -/
def dayLength : Nat := 10

/-- A day and the time of day that may follow it. -/
def spelled? (cs : List Char) : Option Moment := do
  let (year, rest) ← number? 4 4 cs
  let (month, rest) ← number? 1 2 (← after? ['-'] rest)
  let (day, rest) ← number? 1 2 (← after? ['-'] rest)
  if rest.isEmpty then
    if cs.length == dayLength then some ⟨⟨year, month, day⟩, none⟩ else none
  else some ⟨⟨year, month, day⟩, some (← time? (← timeBehind? rest))⟩

/-- The moment that a scalar spells, if it spells one. -/
def read? (cs : List Char) : Option (Except DocumentFault Moment) :=
  (spelled? cs).map fun m => if m.isValid then .ok m else .error .malformed

theorem isValid_of_read? {cs : List Char} {m : Moment} (h : read? cs = some (.ok m)) :
    m.isValid = true := by
  obtain ⟨found, _, hm⟩ := Option.map_eq_some_iff.1 h
  split at hm
  · cases hm; assumption
  · cases hm

end MomentText

end Yaml

end ScimBridge
