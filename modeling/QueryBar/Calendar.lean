/-
Instants, and how they are written as dates.

An instant is a number of milliseconds since the start of 1970, UTC.  Its date is found
by counting in eras of 400 years, which all have the same number of days, and in years
that begin in March, so that the leap day comes last.  A date is written in the internet
format: year, month, day, time, milliseconds only if there are any, and the offset from
UTC, which is always nought and has two spellings.
-/

namespace QueryBar

/-- A moment in time, in milliseconds since the start of 1970, UTC. -/
structure Instant where
  millis : Int
  deriving DecidableEq

/-- A day of the proleptic Gregorian calendar; the year before year 1 is year 0. -/
structure CalendarDay where
  year : Int
  month : Nat
  day : Nat
  deriving DecidableEq

/-- The day that lies `days` days after the first of January 1970. -/
def CalendarDay.ofDays (days : Int) : CalendarDay :=
  let fromMarch := days + 719468
  let era := fromMarch / 146097
  let dayOfEra := (fromMarch % 146097).toNat
  let yearOfEra := (dayOfEra - dayOfEra / 1460 + dayOfEra / 36524 - dayOfEra / 146096) / 365
  let dayOfYear := dayOfEra - (365 * yearOfEra + yearOfEra / 4 - yearOfEra / 100)
  let monthFromMarch := (5 * dayOfYear + 2) / 153
  let month := if monthFromMarch < 10 then monthFromMarch + 3 else monthFromMarch - 9
  { year := yearOfEra + era * 400 + (if month ≤ 2 then 1 else 0)
    month
    day := dayOfYear - (153 * monthFromMarch + 2) / 5 + 1 }

namespace Instant

def millisPerDay : Int := 86400000

def calendarDay (t : Instant) : CalendarDay := .ofDays (t.millis / millisPerDay)

/-- The instant, if its year is one of the years that dates are kept for. -/
def ofMillis? (millis : Int) : Option Instant :=
  let year := (Instant.mk millis).calendarDay.year
  if -262143 ≤ year ∧ year ≤ 262142 then some ⟨millis⟩ else none

def padded (width n : Nat) : String :=
  let digits := Nat.toDigits 10 n
  String.ofList (List.replicate (width - digits.length) '0' ++ digits)

/-- A year has four digits, and outside 0 to 9999 also a sign. -/
def yearText (year : Int) : String :=
  if 0 ≤ year ∧ year ≤ 9999 then padded 4 year.natAbs
  else (if year < 0 then "-" else "+") ++ padded 4 year.natAbs

/-- The date and time of day, followed by the given spelling of the offset nought. -/
def text (t : Instant) (offset : String) : String :=
  let d := t.calendarDay
  let millis := (t.millis % millisPerDay).toNat
  let fraction := if millis % 1000 = 0 then "" else "." ++ padded 3 (millis % 1000)
  yearText d.year ++ "-" ++ padded 2 d.month ++ "-" ++ padded 2 d.day ++ "T" ++
    padded 2 (millis / 3600000) ++ ":" ++ padded 2 (millis / 60000 % 60) ++ ":" ++
    padded 2 (millis / 1000 % 60) ++ fraction ++ offset

def display (t : Instant) : String := t.text "+00:00"

/-- The date as it is written inside JSON. -/
def jsonText (t : Instant) : String := t.text "Z"

end Instant

end QueryBar
