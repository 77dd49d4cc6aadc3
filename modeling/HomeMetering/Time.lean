/-!
# Time

Instants are microseconds since the first of January 1970, dates follow the Gregorian calendar.
-/

namespace HomeMetering

structure Instant where
  /-- Microseconds since the start of 1970. -/
  micros : Int
  deriving Repr, DecidableEq

namespace Instant

/-- Whole minutes since the start of 1970. -/
def minutes (t : Instant) : Int := Int.fdiv t.micros 60000000

def minuteOfHour (t : Instant) : Nat := (Int.emod t.minutes 60).toNat

/-- The moment some microseconds later. -/
def after (t : Instant) (micros : Int) : Instant := ⟨t.micros + micros⟩

def before (a b : Instant) : Bool := a.micros < b.micros

/-- Days since the start of 1970. -/
def days (t : Instant) : Int := Int.fdiv t.micros 86400000000

end Instant

/-- A date of the calendar. -/
structure Date where
  year : Int
  month : Nat
  day : Nat
  deriving Repr, DecidableEq

/-- The date of a day since the start of 1970. Years are counted from March, so that the day that a
leap year adds is the last one; 400 years have 146097 days. -/
def Date.ofDays (days : Int) : Date :=
  let z := days + 719468
  let era := Int.fdiv z 146097
  let doe := (z - era * 146097).toNat
  let yoe := (doe - doe / 1460 + doe / 36524 - doe / 146096) / 365
  let doy := doe - (365 * yoe + yoe / 4 - yoe / 100)
  let mp := (5 * doy + 2) / 153
  let day := doy - (153 * mp + 2) / 5 + 1
  let month := if mp < 10 then mp + 3 else mp - 9
  let year : Int := yoe + era * 400 + (if month ≤ 2 then 1 else 0)
  ⟨year, month, day⟩

/-- A number in at least `width` digits. -/
def padded (width n : Nat) : String :=
  let text := toString n
  String.ofList (List.replicate (width - text.length) '0') ++ text

/-- A year in four digits; outside of those with a sign. -/
def yearText (year : Int) : String :=
  if 0 ≤ year ∧ year ≤ 9999 then padded 4 year.toNat
  else (if year < 0 then "-" else "+") ++ padded 4 year.natAbs

/-- Fractions of a second: none, three or six digits, as many as are needed. -/
def fractionText (micros : Nat) : String :=
  if micros = 0 then ""
  else if micros % 1000 = 0 then "." ++ padded 3 (micros / 1000)
  else "." ++ padded 6 micros

/-- Date and time of day, with `zone` behind them. -/
def Instant.text (t : Instant) (zone : String) : String :=
  let date := Date.ofDays t.days
  let rest := (t.micros - t.days * 86400000000).toNat
  let seconds := rest / 1000000
  yearText date.year ++ "-" ++ padded 2 date.month ++ "-" ++ padded 2 date.day ++ "T" ++
    padded 2 (seconds / 3600) ++ ":" ++ padded 2 (seconds / 60 % 60) ++ ":" ++
    padded 2 (seconds % 60) ++ fractionText (rest % 1000000) ++ zone

/-- A span of time in milliseconds, in the largest unit that is not zero. -/
def spanText (millis : Nat) : String :=
  if millis = 0 then "0ns"
  else if millis < 1000 then toString millis ++ "ms"
  else
    let fraction := (padded 3 (millis % 1000)).toList.reverse.dropWhile (· == '0')
    let whole := toString (millis / 1000)
    if fraction.isEmpty then whole ++ "s"
    else whole ++ "." ++ String.ofList fraction.reverse ++ "s"

end HomeMetering
