/-!
# Calendar

Dates of the proleptic Gregorian calendar with astronomical years.

* **`Date`** — year, month and day.
* **`Date.ofDays`** — the date a number of days after 1970-01-01.
-/

namespace SoundControl.Time

/-- A day of the proleptic Gregorian calendar. -/
structure Date where
  /-- Astronomical year: 0 is the year before 1. -/
  year : Int
  /-- Month, from 1. -/
  month : Nat
  /-- Day of the month, from 1. -/
  day : Nat
  deriving DecidableEq, Repr

/-- Days in the 400 years after which the calendar repeats. -/
def eraDays : Int := 146097

/-- Days from 0000-03-01 to 1970-01-01. -/
def daysBefore1970 : Int := 719468

/-- Full years before the given day of an era whose years start in March. -/
def yearOfEra (day : Nat) : Nat := (day - day / 1460 + day / 36524 - day / 146096) / 365

/-- Days before the given year of an era whose years start in March. -/
def dayOfYearStart (year : Nat) : Nat := 365 * year + year / 4 - year / 100

/-- **The date a number of days after 1970-01-01.** Years are counted from March, so that the leap
day is the last of its year. -/
def Date.ofDays (days : Int) : Date :=
  let shifted := days + daysBefore1970
  let era := Int.fdiv shifted eraDays
  let dayOfEra := (Int.fmod shifted eraDays).toNat
  let year := yearOfEra dayOfEra
  let dayOfYear := dayOfEra - dayOfYearStart year
  let monthFromMarch := (5 * dayOfYear + 2) / 153
  let day := dayOfYear - (153 * monthFromMarch + 2) / 5 + 1
  let month := if monthFromMarch < 10 then monthFromMarch + 3 else monthFromMarch - 9
  ⟨year + era * 400 + (if month ≤ 2 then 1 else 0), month, day⟩

end SoundControl.Time
