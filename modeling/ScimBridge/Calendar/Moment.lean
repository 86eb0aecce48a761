/-!
# Moments

A moment is a day of the calendar, or a day with a time of day that may say how far ahead its time
zone is. It has one text on its own and another one inside a list or an object. Two moments with
known zones are the same if they are at once, whatever their zones.

Main statement: no day is later in its month than the month has days.
-/

namespace ScimBridge

/-- Whether a year has a leap day. -/
def isLeapYear (year : Nat) : Bool := year % 4 == 0 && (year % 100 != 0 || year % 400 == 0)

/-- How many days a month has. -/
def daysIn (year month : Nat) : Nat :=
  if month == 2 then if isLeapYear year then 29 else 28
  else if [4, 6, 9, 11].contains month then 30
  else 31

/-- A number with zeros in front, up to a width. -/
def padded (width n : Nat) : String :=
  let digits := toString n
  String.ofList (List.replicate (width - digits.length) '0') ++ digits

/-- A day of the calendar. -/
structure Day where
  year : Nat
  month : Nat
  day : Nat
  deriving DecidableEq, Repr

namespace Day

/-- Whether there is such a day. -/
def isValid (d : Day) : Bool :=
  1 ≤ d.year && 1 ≤ d.month && d.month ≤ 12 && 1 ≤ d.day && d.day ≤ daysIn d.year d.month

theorem day_le_of_isValid {d : Day} (h : d.isValid = true) : d.day ≤ 31 := by
  have bound : daysIn d.year d.month ≤ 31 := by unfold daysIn; split <;> split <;> omega
  simp only [isValid, Bool.and_eq_true, decide_eq_true_eq] at h
  omega

/-- How many days there are from the beginning of the calendar up to a day. -/
def number (d : Day) : Nat :=
  let passed := d.year - 1
  let months := (List.range (d.month - 1)).foldl (fun n m => n + daysIn d.year (m + 1)) 0
  365 * passed + passed / 4 - passed / 100 + passed / 400 + months + d.day

/-- The text of a day. -/
def text (d : Day) : String :=
  padded 4 d.year ++ "-" ++ padded 2 d.month ++ "-" ++ padded 2 d.day

end Day

/-- A time of day, and how many minutes its zone is ahead, if it says so. -/
structure TimeOfDay where
  hour : Nat
  minute : Nat
  second : Nat
  micros : Nat
  ahead? : Option Int
  deriving DecidableEq, Repr

/-- How many minutes a day has. -/
def minutesPerDay : Int := 1440

namespace TimeOfDay

/-- Whether there is such a time; no zone is a day or more away. -/
def isValid (t : TimeOfDay) : Bool :=
  t.hour < 24 && t.minute < 60 && t.second < 60
    && t.ahead?.all fun m => -minutesPerDay < m && m < minutesPerDay

/-- The text of a time of day. -/
def text (t : TimeOfDay) : String :=
  let zone := match t.ahead? with
    | none => ""
    | some m =>
      (if m < 0 then "-" else "+") ++ padded 2 (m.natAbs / 60) ++ ":" ++ padded 2 (m.natAbs % 60)
  padded 2 t.hour ++ ":" ++ padded 2 t.minute ++ ":" ++ padded 2 t.second
    ++ (if t.micros == 0 then "" else "." ++ padded 6 t.micros) ++ zone

/-- The distance of a zone inside a list: whole days, of which there are none or one back, and the
seconds on top of them. -/
def zoneQuoted (ahead : Int) : String :=
  if ahead = 0 then "datetime.timezone.utc"
  else
    let days := if ahead < 0 then "days=-1, " else ""
    "datetime.timezone(datetime.timedelta(" ++ days ++ "seconds="
      ++ toString (60 * Int.fmod ahead minutesPerDay) ++ "))"

/-- The parts of a time of day inside a list. Seconds and their fraction are left out where they are
zero. -/
def quotedParts (t : TimeOfDay) : List String :=
  let seconds := if t.second = 0 ∧ t.micros = 0 then [] else [t.second]
  let micros := if t.micros = 0 then [] else [t.micros]
  ([t.hour, t.minute] ++ seconds ++ micros).map toString
    ++ t.ahead?.toList.map fun m => "tzinfo=" ++ zoneQuoted m

end TimeOfDay

/-- A day, perhaps with a time of day. -/
structure Moment where
  day : Day
  time? : Option TimeOfDay
  deriving DecidableEq, Repr

namespace Moment

/-- Whether there is such a moment. -/
def isValid (m : Moment) : Bool := m.day.isValid && m.time?.all TimeOfDay.isValid

/-- The name of the kind of a moment in messages. -/
def kindName (m : Moment) : String :=
  if m.time?.isSome then "datetime.datetime" else "datetime.date"

/-- The text of a moment on its own. -/
def text (m : Moment) : String :=
  match m.time? with
  | none => m.day.text
  | some t => m.day.text ++ " " ++ t.text

/-- The text of a moment inside a list or an object. -/
def quoted (m : Moment) : String :=
  let day := [m.day.year, m.day.month, m.day.day].map toString
  let time := (m.time?.map TimeOfDay.quotedParts).getD []
  m.kindName ++ "(" ++ ", ".intercalate (day ++ time) ++ ")"

/-- How many minutes there are from the beginning of the calendar up to a time of day in a zone that
is so much ahead. -/
def minutes (d : Day) (t : TimeOfDay) (ahead : Int) : Int :=
  minutesPerDay * d.number + 60 * t.hour + t.minute - ahead

/-- Whether two moments are the same. -/
def same (a b : Moment) : Bool :=
  match a.time?, b.time? with
  | none, none => a.day == b.day
  | some s, some t =>
    match s.ahead?, t.ahead? with
    | none, none => a.day == b.day && s == t
    | some m, some n =>
      minutes a.day s m == minutes b.day t n && s.second == t.second && s.micros == t.micros
    | _, _ => false
  | _, _ => false

end Moment

end ScimBridge
