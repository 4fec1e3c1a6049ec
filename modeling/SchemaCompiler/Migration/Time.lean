import SchemaCompiler.Fault
import SchemaCompiler.Text.Line

/-!
# Times

The time of a migration is a date and a time of day with a distance from UTC, and is written in
UTC.  The calendar is the Gregorian one, continued to the years 1 to 9999 and to no other year.

* `Zone` — how far a clock is ahead of UTC;
* `Time.toUtc` — the same instant in UTC; it faults where that falls outside the calendar;
* `Time.isoText` — the text in a document, such as `2024-05-01T12:30:00+00:00`;
* `Time.stamp` — the digits at the front of a file name, such as `20240501123000`.
-/

namespace SchemaCompiler

/-- How many microseconds a clock is ahead of UTC. -/
inductive Zone where
  /-- The clock tells its distance. -/
  | fixed (ahead : Int)
  /-- The clock is that of the machine, which looks the distance up for what the clock shows, in
  microseconds since the first day of the calendar. -/
  | machine (ahead : Int → Except Misuse Int)

/-- A time, as a clock on the wall shows it, and the zone of that clock. -/
structure Time where
  year : Nat
  month : Nat
  day : Nat
  hour : Nat
  minute : Nat
  second : Nat
  microsecond : Nat
  zone : Zone

/-- A machine whose clock shows UTC.  It cannot look up the first day of the calendar, for want of a
day before it. -/
def Zone.machineInUtc : Zone :=
  .machine fun clock => if clock < 86400000000 then .error .wrongValue else .ok 0

namespace Time

/-- Whether a year has a 29th of February. -/
def isLeapYear (year : Nat) : Bool := year % 4 == 0 && (year % 100 != 0 || year % 400 == 0)

/-- The number of days in a month. -/
def daysInMonth (year month : Nat) : Nat :=
  match month with
  | 2 => if isLeapYear year then 29 else 28
  | 4 | 6 | 9 | 11 => 30
  | _ => 31

/-- Days before the first of January of a year, counted from year 1. -/
def daysBeforeYear (year : Nat) : Nat :=
  let y := year - 1
  365 * y + y / 4 - y / 100 + y / 400

/-- Days before the first of a month in its year. -/
def daysBeforeMonth (year month : Nat) : Nat :=
  (List.range (month - 1)).foldl (fun days m => days + daysInMonth year (m + 1)) 0

/-- Days since the first day of the calendar. -/
def dayNumber (year month day : Nat) : Nat :=
  daysBeforeYear year + daysBeforeMonth year month + (day - 1)

/-- Month and day of the day `n` of a year, where `months` are the months still to come. -/
def monthOfDay (year : Nat) : List Nat → Nat → Nat × Nat
  | [], n => (12, n + 1)
  | month :: months, n =>
    if n < daysInMonth year month then (month, n + 1)
    else monthOfDay year months (n - daysInMonth year month)

/-- The date of a day, by the number of days since the first one. -/
def dateOfDay (n : Nat) : Nat × Nat × Nat :=
  -- A day of the year `y` has a number from `365 * (y - 1)` to `366 * y`.
  let guess := n * 400 / 146097 + 1
  let year := if n < daysBeforeYear guess then guess - 1
    else if daysBeforeYear (guess + 1) ≤ n then guess + 1 else guess
  let (month, day) := monthOfDay year (List.range' 1 12) (n - daysBeforeYear year)
  (year, month, day)

/-- Seconds since the first day of the calendar, by the clock of the time. -/
def clockSeconds (t : Time) : Int :=
  (dayNumber t.year t.month t.day : Int) * 86400 + (t.hour * 3600 + t.minute * 60 + t.second : Nat)

/-- Microseconds since the first day of the calendar, by the clock of the time. -/
def clock (t : Time) : Int := t.clockSeconds * 1000000 + t.microsecond

/-- How many microseconds the clock of the time is ahead of UTC. -/
def ahead (t : Time) : Except Misuse Int :=
  match t.zone with
  | .fixed ahead => .ok ahead
  | .machine ahead => ahead t.clock

/-- The number of days that the calendar has. -/
def calendarDays : Nat := daysBeforeYear 10000

/-- The time in UTC at a number of seconds since the first day of the calendar. -/
def ofSeconds (seconds microsecond : Nat) : Time :=
  let (year, month, day) := dateOfDay (seconds / 86400)
  let rest := seconds % 86400
  { year, month, day
    hour := rest / 3600, minute := rest / 60 % 60, second := rest % 60, microsecond
    zone := .fixed 0 }

/-- The same instant in UTC, if the calendar has it. -/
def toUtc (t : Time) : Except Fault Time :=
  match t.ahead with
  | .error cause => .error (.misuse cause)
  | .ok 0 => .ok { t with zone := .fixed 0 }
  | .ok ahead =>
    let instant := t.clock - ahead
    if instant < 0 ∨ (calendarDays : Int) * 86400000000 ≤ instant then .error (.misuse .outOfRange)
    else .ok (ofSeconds (instant.toNat / 1000000) (instant.toNat % 1000000))

/-- The text of a time in UTC; microseconds are left out if there are none. -/
def isoText (t : Time) : String :=
  Text.padNumber 4 t.year ++ "-" ++ Text.padNumber 2 t.month ++ "-" ++ Text.padNumber 2 t.day ++
    "T" ++ Text.padNumber 2 t.hour ++ ":" ++ Text.padNumber 2 t.minute ++ ":" ++
    Text.padNumber 2 t.second ++
    (if t.microsecond = 0 then "" else "." ++ Text.padNumber 6 t.microsecond) ++ "+00:00"

/-- Year, month, day, hour, minute and second in one run of digits; the year is not padded. -/
def stamp (t : Time) : String :=
  toString t.year ++ Text.padNumber 2 t.month ++ Text.padNumber 2 t.day ++
    Text.padNumber 2 t.hour ++ Text.padNumber 2 t.minute ++ Text.padNumber 2 t.second

end Time
end SchemaCompiler
