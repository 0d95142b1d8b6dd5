import SoundControl.Number.Shortest
import SoundControl.Number.Wide
import SoundControl.Time.Instant

/-!
# Time tags

A time tag is a fixed-point number of seconds since 1900-01-01: 32 bits of seconds and 32 bits of
fraction.  Its **ticks** are the two halves as one 64-bit number; they wrap at the end of the
32-bit era, in 2036.

* **`TimeTag`** — seconds and fraction, in order of time.
* **`TimeTag.ticks`**, **`TimeTag.ofTicks`** — as one number, wrapping.
* **`TimeTag.ofInstant`**, **`TimeTag.ofInstant?`**, **`TimeTag.toInstant`** — from and to universal
  time, to the nearest tick and nanosecond.
* **`TimeTag.ofTimestamp`**, **`TimeTag.timestamp`** — from and to seconds since 1900.
* **`TimeTag.plus`**, **`TimeTag.minus`**, **`TimeTag.difference`** — offsets in seconds.
-/

namespace SoundControl.Time

open Number

/-- Ticks in a second. -/
def ticksPerSecond : Nat := 0x100000000

/-- Ticks in an era. -/
def eraTicks : Nat := 0x10000000000000000

/-- Seconds from 1900 to 1970. -/
def secondsTo1970 : Nat := 2208988800

/-- **A fixed-point timestamp.** -/
structure TimeTag where
  /-- Seconds since 1900. -/
  seconds : UInt32
  /-- Fraction of a second, in ticks. -/
  fraction : UInt32
  deriving DecidableEq, Repr

/-- Why a time has no time tag. -/
inductive EraFault where
  /-- A moment before 1900 or after the era. -/
  | instant (moment : Instant)
  /-- A number of seconds that is no number, negative, or too large. -/
  | timestamp (seconds : Binary64)

/-- The wording of an era fault. -/
def EraFault.message : EraFault → String
  | .instant moment => moment.text ++ " is outside the timetag range"
  | .timestamp seconds => "OSC timestamp " ++ seconds.plainText ++ " is outside the timetag range"

/-- 1900-01-01. -/
def Instant.epoch : Instant := ⟨-secondsTo1970, 0⟩

/-- **Ticks since 1900,** to the nearest; a leap second counts as the last nanosecond before it. -/
def Instant.ticks (i : Instant) : Int :=
  let nanos := min i.nanos (nanosPerSecond - 1)
  (i.seconds + secondsTo1970) * ticksPerSecond +
    ((nanos * ticksPerSecond + nanosPerSecond / 2) / nanosPerSecond : Nat)

namespace TimeTag

/-- The tag that asks for immediate execution. -/
def immediate : TimeTag := ⟨0, 1⟩

/-- Seconds and fraction as one number. -/
def ticks (t : TimeTag) : Nat := t.seconds.toNat * ticksPerSecond + t.fraction.toNat

/-- The time tag of a number of ticks, modulo the era. -/
def ofTicks (ticks : Int) : TimeTag :=
  let wrapped := (ticks % eraTicks).toNat
  ⟨UInt32.ofNat (wrapped / ticksPerSecond), UInt32.ofNat (wrapped % ticksPerSecond)⟩

instance : Ord TimeTag := ⟨fun s t => compare s.ticks t.ticks⟩

/-- The tag that asks for immediate execution. -/
def isImmediate (t : TimeTag) : Bool := t = immediate

/-! ## Universal time -/

/-- The time tag of an instant, modulo the era. -/
def ofInstant (i : Instant) : TimeTag := ofTicks i.ticks

/-- The time tag of an instant within the era. -/
def ofInstant? (i : Instant) : Except EraFault TimeTag :=
  if 0 ≤ i.ticks && i.ticks < eraTicks then .ok (ofTicks i.ticks) else .error (.instant i)

/-- **The instant of a time tag,** to the nearest nanosecond. -/
def toInstant (t : TimeTag) : Instant :=
  let nanos := (t.fraction.toNat * nanosPerSecond + ticksPerSecond / 2) / ticksPerSecond
  ⟨(t.seconds.toNat : Int) - secondsTo1970 + (nanos / nanosPerSecond : Nat),
    nanos % nanosPerSecond⟩

/-- Equal to the time tag of an instant. -/
def isAt (t : TimeTag) (i : Instant) : Bool := t = ofInstant i

/-- Compared with the time tag of an instant. -/
def compareAt (t : TimeTag) (i : Instant) : Ordering := compare t (ofInstant i)

/-! ## Seconds since 1900 -/

/-- The time tag nearest to a number of seconds since 1900. -/
def ofTimestamp (seconds : Binary64) : Except EraFault TimeTag :=
  let outside := .error (.timestamp seconds)
  match seconds.units? with
  | none => outside
  | some units =>
    if units < 0 then outside
    else match (seconds.scaleUp 32).nearestInt? with
      | none => outside
      | some ticks => if ticks < eraTicks then .ok (ofTicks ticks) else outside

/-- Seconds since 1900. -/
def timestamp (t : TimeTag) : Binary64 :=
  (Binary.ofInt _ t.seconds.toNat).add ((Binary.ofInt _ t.fraction.toNat).scaleDown 32)

/-- Seconds since 1970. -/
def unixTimestamp (t : TimeTag) : Binary64 := t.timestamp.add (Binary.ofInt _ (-secondsTo1970))

/-- Seconds since 1900, given seconds since 1970. -/
def timestampOfUnix (seconds : Binary64) : Binary64 := seconds.add (Binary.ofInt _ secondsTo1970)

/-! ## Offsets -/

/-- The ticks of an offset in seconds: to the nearest, ties away from zero, and held within the
wide integers; no number means no offset. -/
def offsetTicks (seconds : Binary64) : Int :=
  let scaled := seconds.scaleUp 32
  match scaled.nearestInt? with
  | some ticks => Wide.clamp ticks
  | none => if scaled.isNaN then 0 else if scaled.isNegative then Wide.least else Wide.greatest

/-- **A number of seconds later,** wrapping at the end of the era. -/
def plus (t : TimeTag) (seconds : Binary64) : TimeTag := ofTicks (t.ticks + offsetTicks seconds)

/-- A number of seconds earlier. -/
def minus (t : TimeTag) (seconds : Binary64) : TimeTag := t.plus seconds.neg

/-- Seconds from `s` to `t`. -/
def difference (t s : TimeTag) : Binary64 :=
  (Binary.ofInt _ ((t.ticks : Int) - s.ticks)).scaleDown 32

/-- The time tag as shown to people. -/
def text (t : TimeTag) : String :=
  "TimeTag(" ++ toString t.seconds.toNat ++ ", " ++ toString t.fraction.toNat ++ ")"

end TimeTag

end SoundControl.Time
