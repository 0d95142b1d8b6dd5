import SoundControl.Time.Calendar

/-!
# Instants

A moment of coordinated universal time with nanoseconds.  During a leap second the nanoseconds
count on beyond a full second.

* **`Instant`** — seconds since 1970 and nanoseconds, in order of time.
* **`Instant.text`** — date, time, and an offset of zero; as many fraction digits as are needed,
  in groups of three.
-/

namespace SoundControl.Time

/-- Nanoseconds in a second. -/
def nanosPerSecond : Nat := 1000000000

/-- **A moment of universal time.** -/
structure Instant where
  /-- Whole seconds since 1970-01-01T00:00:00. -/
  seconds : Int
  /-- Nanoseconds in that second; a full second or more in a leap second. -/
  nanos : Nat
  deriving DecidableEq, Repr

namespace Instant

/-- Digits of a number, padded with zeros in front. -/
def padded (width n : Nat) : List Char :=
  let digits := Nat.toDigits 10 n
  List.replicate (width - digits.length) '0' ++ digits

/-- Four digits, or a sign and at least four digits outside the years 0 to 9999. -/
def yearText (year : Int) : List Char :=
  if 0 ≤ year && year ≤ 9999 then padded 4 year.toNat
  else (if year < 0 then '-' else '+') :: padded 4 year.natAbs

/-- The fraction of a second with the fewest of 0, 3, 6 and 9 digits that are exact. -/
def fractionText (nanos : Nat) : List Char :=
  if nanos = 0 then []
  else if nanos % 1000000 = 0 then '.' :: padded 3 (nanos / 1000000)
  else if nanos % 1000 = 0 then '.' :: padded 6 (nanos / 1000)
  else '.' :: padded 9 nanos

/-- The local part of an instant's text. A leap second is the sixtieth of its minute. -/
def clockText (i : Instant) : List Char :=
  let date := Date.ofDays (Int.fdiv i.seconds 86400)
  let second := (Int.fmod i.seconds 86400).toNat
  let leap := i.nanos / nanosPerSecond
  yearText date.year ++ ['-'] ++ padded 2 date.month ++ ['-'] ++ padded 2 date.day ++ ['T'] ++
    padded 2 (second / 3600) ++ [':'] ++ padded 2 (second / 60 % 60) ++ [':'] ++
    padded 2 (second % 60 + leap) ++ fractionText (i.nanos - leap * nanosPerSecond)

/-- **Date, time, and offset zero.** -/
def text (i : Instant) : String := String.ofList i.clockText ++ "+00:00"

/-- The same with `Z` for the offset. -/
def zuluText (i : Instant) : String := String.ofList i.clockText ++ "Z"

end Instant

end SoundControl.Time
