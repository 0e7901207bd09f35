/-!
# Dates

A moment is a number of microseconds since the start of year 1 in the calendar with leap years
every four years, except in centuries that four does not divide. A moment may or may not be tied to
universal time.
-/

namespace ScriptLang

structure Moment where
  micros : Nat
  universal : Bool := true
  deriving DecidableEq, Repr, Inhabited

structure Day where
  year : Nat
  month : Nat
  day : Nat
  deriving DecidableEq, Repr

namespace Moment

def isLeap (year : Nat) : Bool := year % 4 == 0 && (year % 100 != 0 || year % 400 == 0)

def daysBeforeYear (year : Nat) : Nat :=
  let y := year - 1
  y * 365 + y / 4 - y / 100 + y / 400

def daysInMonth (year month : Nat) : Nat :=
  match month with
  | 2 => if isLeap year then 29 else 28
  | 4 | 6 | 9 | 11 => 30
  | _ => 31

def daysBeforeMonth (year month : Nat) : Nat :=
  (List.range (month - 1)).foldl (fun days m => days + daysInMonth year (m + 1)) 0

/-- The number of a day, counted from zero at the first day of year 1. -/
def dayNumber (d : Day) : Nat :=
  daysBeforeYear d.year + daysBeforeMonth d.year d.month + (d.day - 1)

private def monthFrom (year : Nat) : (tries month rest : Nat) → Nat × Nat
  | 0, month, rest => (month, rest)
  | tries + 1, month, rest =>
    let n := daysInMonth year month
    if rest < n then (month, rest) else monthFrom year tries (month + 1) (rest - n)

def dayOf (n : Nat) : Day :=
  let guess := n / 366 + 1
  let year := (List.range (n / 365 + 3 - guess)).foldl
    (fun y i => if daysBeforeYear (guess + i) ≤ n then guess + i else y) guess
  let (month, rest) := monthFrom year 12 1 (n - daysBeforeYear year)
  ⟨year, month, rest + 1⟩

def dayMicros : Nat := 86400 * 1000000

def limit : Nat := daysBeforeYear 10000 * dayMicros

def day (m : Moment) : Day := dayOf (m.micros / dayMicros)

def timeOfDay (m : Moment) : Nat := m.micros % dayMicros

def ofDay (d : Day) (time : Nat) (universal : Bool) : Moment :=
  ⟨dayNumber d * dayMicros + time, universal⟩

private def padded (width n : Nat) : String :=
  let s := toString n
  String.ofList (List.replicate (width - s.length) '0') ++ s

/-- The moment as text, with microseconds if there are any and with the offset if there is one. -/
def text (m : Moment) : String :=
  let d := m.day
  let t := m.timeOfDay
  let seconds := t / 1000000
  padded 4 d.year ++ "-" ++ padded 2 d.month ++ "-" ++ padded 2 d.day ++ " " ++
    padded 2 (seconds / 3600) ++ ":" ++ padded 2 (seconds / 60 % 60) ++ ":" ++
    padded 2 (seconds % 60) ++
    (if t % 1000000 == 0 then "" else "." ++ padded 6 (t % 1000000)) ++
    (if m.universal then "+00:00" else "")

def quoted (m : Moment) : String :=
  let d := m.day
  let t := m.timeOfDay
  let seconds := t / 1000000
  let fields := [d.year, d.month, d.day, seconds / 3600, seconds / 60 % 60]
  let tail :=
    if t % 1000000 != 0 then [seconds % 60, t % 1000000]
    else if seconds % 60 != 0 then [seconds % 60]
    else []
  "datetime.datetime(" ++ ", ".intercalate ((fields ++ tail).map toString) ++
    (if m.universal then ", tzinfo=datetime.timezone.utc)" else ")")

end Moment

end ScriptLang
