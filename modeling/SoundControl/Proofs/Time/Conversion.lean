import Mathlib.Algebra.Order.Group.Abs
import Mathlib.Algebra.Order.Group.Int
import SoundControl.Time.TimeTag

/-! # Instants as time tags and back

An instant counts nanoseconds, a time tag counts ticks, and both can be counted from 1900.  Told of
these two counts, each conversion rounds one number to the nearest of the other unit, wherever the
seconds change.  A nanosecond is more than four ticks: rounded to ticks, no two nanoseconds meet, and
rounding back finds the nanosecond again; a tick rounded to a nanosecond moves by at most two ticks.

* **`Instant.later`**, **`Instant.eraEnd`**, the order of instants — the era as a span of time.
* **`Instant.count`** — nanoseconds since 1900.
* **`nearestTicks`**, **`nearestNanos`** — one unit rounded to the other.
* **`Instant.ticks_eq_nearestTicks`**, **`TimeTag.count_toInstant`** — the conversions are these
  roundings.
* **`TimeTag.ofInstant?_eq_ok_iff`** — an instant within the era has the time tag of its ticks.
* **`TimeTag.instant_restored`** — an instant is found again from its time tag.
* **`TimeTag.ticks_nearly_restored`** — a time tag is nearly found again from its instant, unless it
  rounds to the end of the era. -/

namespace SoundControl.Time

/-! ## The era as a span of time -/

/-- Seconds in an era. -/
def secondsPerEra : Nat := 0x100000000

namespace Instant

/-- **Earlier:** in an earlier second, or at an earlier nanosecond of the same one. -/
instance : LT Instant :=
  ⟨fun i j => i.seconds < j.seconds ∨ i.seconds = j.seconds ∧ i.nanos < j.nanos⟩

/-- At the same time or earlier. -/
instance : LE Instant := ⟨fun i j => ¬ j < i⟩

variable {i j : Instant}

theorem lt_iff : i < j ↔ i.seconds < j.seconds ∨ i.seconds = j.seconds ∧ i.nanos < j.nanos :=
  Iff.rfl

theorem le_iff : i ≤ j ↔ ¬ j < i := Iff.rfl

instance : DecidableLT Instant := fun i j => decidable_of_iff _ (lt_iff (i := i) (j := j)).symm

/-- **A number of seconds later.** -/
def later (i : Instant) (seconds : Int) : Instant := ⟨i.seconds + seconds, i.nanos⟩

/-- **The end of the era,** 2036-02-07T06:28:16: the first instant without a time tag. -/
def eraEnd : Instant := epoch.later secondsPerEra

example : epoch.text = "1900-01-01T00:00:00+00:00" ∧ eraEnd.text = "2036-02-07T06:28:16+00:00" := by
  decide +kernel

/-! ## Counting from 1900 -/

/-- **Nanoseconds since 1900.** -/
def count (i : Instant) : Int := (i.seconds + secondsTo1970) * nanosPerSecond + i.nanos

theorem count_eraEnd : eraEnd.count = secondsPerEra * nanosPerSecond := by decide

/-- Outside of leap seconds, what is earlier has the smaller count. -/
theorem lt_iff_count (hi : i.nanos < nanosPerSecond) (hj : j.nanos < nanosPerSecond) :
    i < j ↔ i.count < j.count := by
  simp only [lt_iff, count, nanosPerSecond] at *
  omega

/-- Outside of leap seconds, an instant is given by its count. -/
theorem eq_of_count (hi : i.nanos < nanosPerSecond) (hj : j.nanos < nanosPerSecond)
    (same : i.count = j.count) : i = j := by
  obtain ⟨seconds, nanos⟩ := i
  obtain ⟨seconds', nanos'⟩ := j
  simp only [count, nanosPerSecond] at *
  obtain rfl : seconds = seconds' := by omega
  obtain rfl : nanos = nanos' := by omega
  rfl

end Instant

/-! ## Rounding one unit to the other -/

/-- **The ticks nearest to a number of nanoseconds.** -/
def nearestTicks (nanos : Int) : Int :=
  (nanos * ticksPerSecond + (nanosPerSecond / 2 : Nat)) / nanosPerSecond

/-- **The nanoseconds nearest to a number of ticks.** -/
def nearestNanos (ticks : Int) : Int :=
  (ticks * nanosPerSecond + (ticksPerSecond / 2 : Nat)) / ticksPerSecond

/-- **Nanoseconds are found again from their ticks,** half a tick being less than half a
nanosecond. -/
theorem nearestNanos_nearestTicks (nanos : Int) : nearestNanos (nearestTicks nanos) = nanos := by
  simp only [nearestNanos, nearestTicks, ticksPerSecond, nanosPerSecond]
  omega

/-- **Ticks are found again from their nanoseconds up to two,** half a nanosecond being more than two
ticks and less than two and a half. -/
theorem nearestTicks_nearestNanos (ticks : Int) :
    |nearestTicks (nearestNanos ticks) - ticks| ≤ 2 := by
  rw [abs_le]
  simp only [nearestNanos, nearestTicks, ticksPerSecond, nanosPerSecond]
  omega

/-- More nanoseconds have more ticks. -/
theorem nearestTicks_lt {nanos nanos' : Int} (less : nanos < nanos') :
    nearestTicks nanos < nearestTicks nanos' := by
  simp only [nearestTicks, ticksPerSecond, nanosPerSecond]
  omega

/-- **No nanosecond is rounded out of the era or into it.** -/
theorem nearestTicks_in_era_iff {nanos : Int} :
    (0 ≤ nearestTicks nanos ∧ nearestTicks nanos < eraTicks) ↔
      0 ≤ nanos ∧ nanos < secondsPerEra * nanosPerSecond := by
  simp only [nearestTicks, ticksPerSecond, nanosPerSecond, eraTicks, secondsPerEra]
  omega

/-- **The last two ticks of the era are rounded out of it,** and no tick into it. -/
theorem nearestNanos_in_era_iff {ticks : Int} :
    (0 ≤ nearestNanos ticks ∧ nearestNanos ticks < secondsPerEra * nanosPerSecond) ↔
      -2 ≤ ticks ∧ ticks + 2 < eraTicks := by
  simp only [nearestNanos, ticksPerSecond, nanosPerSecond, eraTicks, secondsPerEra]
  omega

/-- The last two ticks of the era are rounded to its end. -/
theorem nearestNanos_last {ticks : Int} (last : eraTicks ≤ ticks + 2) (within : ticks < eraTicks) :
    nearestNanos ticks = secondsPerEra * nanosPerSecond := by
  simp only [nearestNanos, ticksPerSecond, nanosPerSecond, eraTicks, secondsPerEra] at *
  omega

/-! ## The conversions are roundings -/

/-- **The ticks of an instant are those nearest to its count.** -/
theorem Instant.ticks_eq_nearestTicks {i : Instant} (regular : i.nanos < nanosPerSecond) :
    i.ticks = nearestTicks i.count := by
  -- The cap only holds back leap seconds.
  have capped : min i.nanos (nanosPerSecond - 1) = i.nanos := by
    simp only [nanosPerSecond] at *
    omega
  show (i.seconds + secondsTo1970) * ticksPerSecond +
    ((min i.nanos (nanosPerSecond - 1) * ticksPerSecond + nanosPerSecond / 2) /
      nanosPerSecond : Nat) = nearestTicks i.count
  rw [capped]
  simp only [nearestTicks, count, ticksPerSecond, nanosPerSecond]
  omega

/-- An instant has ticks of the era if and only if it is in the era, leap seconds included. -/
theorem Instant.ticks_in_era_iff {i : Instant} :
    (0 ≤ i.ticks ∧ i.ticks < eraTicks) ↔ epoch ≤ i ∧ i < eraEnd := by
  simp only [ticks, le_iff, lt_iff, eraEnd, epoch, later, secondsPerEra, eraTicks, ticksPerSecond,
    nanosPerSecond, secondsTo1970]
  omega

namespace TimeTag

variable {s t : TimeTag} {i j : Instant}

theorem ticks_lt (t : TimeTag) : t.ticks < eraTicks := by
  have seconds := t.seconds.toNat_lt
  have fraction := t.fraction.toNat_lt
  simp only [ticks, ticksPerSecond, eraTicks]
  omega

/-- The ticks of a number of ticks are that number, modulo the era. -/
theorem ticks_ofTicks (ticks : Int) : ((ofTicks ticks).ticks : Int) = ticks % eraTicks := by
  simp only [TimeTag.ticks, ofTicks, UInt32.toNat_ofNat', ticksPerSecond, eraTicks]
  omega

/-- A time tag is given by its ticks. -/
theorem eq_of_ticks (same : s.ticks = t.ticks) : s = t := by
  obtain ⟨seconds, fraction⟩ := s
  obtain ⟨seconds', fraction'⟩ := t
  have within := fraction.toNat_lt
  have within' := fraction'.toNat_lt
  -- A fraction is less than a second, so equal ticks have equal quotients and equal remainders.
  simp only [ticks, ticksPerSecond] at same
  obtain rfl : seconds = seconds' := UInt32.toNat_inj.1 (by omega)
  obtain rfl : fraction = fraction' := UInt32.toNat_inj.1 (by omega)
  rfl

theorem ofTicks_ticks (t : TimeTag) : ofTicks t.ticks = t := by
  apply eq_of_ticks
  have wrapped := ticks_ofTicks t.ticks
  have within := t.ticks_lt
  simp only [eraTicks] at wrapped within
  omega

theorem compare_eq_lt_iff : compare s t = .lt ↔ s.ticks < t.ticks := Nat.compare_eq_lt

/-- **An instant has a time tag** if its ticks are those of one. -/
theorem ofInstant?_eq_ok_iff : ofInstant? i = .ok t ↔ i.ticks = t.ticks := by
  have within := t.ticks_lt
  rw [ofInstant?]
  split
  next inside =>
    rw [Bool.and_eq_true, decide_eq_true_eq, decide_eq_true_eq] at inside
    rw [Except.ok.injEq]
    constructor
    · rintro rfl
      rw [ticks_ofTicks, Int.emod_eq_of_lt inside.1 inside.2]
    · intro same
      rw [same, ofTicks_ticks]
  next outside =>
    rw [Bool.and_eq_true, decide_eq_true_eq, decide_eq_true_eq] at outside
    exact iff_of_false nofun fun same => outside (by omega)

theorem exists_ofInstant?_iff :
    (∃ t, ofInstant? i = .ok t) ↔ 0 ≤ i.ticks ∧ i.ticks < eraTicks := by
  simp only [ofInstant?_eq_ok_iff]
  constructor
  · rintro ⟨t, same⟩
    have within := t.ticks_lt
    omega
  · rintro ⟨least, most⟩
    exact ⟨ofTicks i.ticks, by rw [ticks_ofTicks, Int.emod_eq_of_lt least most]⟩

/-- Within the era, wrapping changes nothing. -/
theorem ofInstant_of_ok (found : ofInstant? i = .ok t) : ofInstant i = t := by
  rw [ofInstant, ofInstant?_eq_ok_iff.1 found, ofTicks_ticks]

/-- **Whole eras later, the time tag is the same.** -/
theorem ofInstant_later (i : Instant) (eras : Int) :
    ofInstant (i.later (eras * secondsPerEra)) = ofInstant i := by
  have shifted : (i.later (eras * secondsPerEra)).ticks = i.ticks + eras * eraTicks := by
    simp only [Instant.ticks, Instant.later, ticksPerSecond, secondsPerEra, eraTicks]
    omega
  apply eq_of_ticks
  apply Int.ofNat_inj.1
  rw [ofInstant, ofInstant, ticks_ofTicks, ticks_ofTicks, shifted, Int.add_mul_emod_self_right]

/-! ## From time tags to instants -/

/-- No time tag is in a leap second. -/
theorem nanos_toInstant_lt (t : TimeTag) : t.toInstant.nanos < nanosPerSecond :=
  Nat.mod_lt _ (by decide)

/-- **The count of a time tag's instant is the one nearest to its ticks,** whether or not the fraction
is rounded up to a full second. -/
theorem count_toInstant (t : TimeTag) : t.toInstant.count = nearestNanos t.ticks := by
  simp only [Instant.count, toInstant, nearestNanos, ticks, ticksPerSecond, nanosPerSecond]
  omega

theorem ticks_toInstant (t : TimeTag) :
    t.toInstant.ticks = nearestTicks (nearestNanos t.ticks) := by
  rw [Instant.ticks_eq_nearestTicks t.nanos_toInstant_lt, count_toInstant]

/-! ## There and back -/

/-- **An instant is found again from its time tag.** Outside of leap seconds, an instant has a time tag
if and only if it is in the era, and the instant of that tag is the same to the nanosecond; later
instants have later tags.  Wrapping changes nothing within the era, and repeats with it for every
instant. -/
theorem instant_restored (regular : i.nanos < nanosPerSecond) :
    ((∃ t, ofInstant? i = .ok t) ↔ Instant.epoch ≤ i ∧ i < Instant.eraEnd) ∧
    (∀ t, ofInstant? i = .ok t → t.toInstant = i ∧ ofInstant i = t) ∧
    (∀ (j : Instant) (s t : TimeTag), j.nanos < nanosPerSecond → i < j →
      ofInstant? i = .ok s → ofInstant? j = .ok t → compare s t = .lt) ∧
    ∀ (j : Instant) (eras : Int), ofInstant (j.later (eras * secondsPerEra)) = ofInstant j := by
  refine ⟨exists_ofInstant?_iff.trans Instant.ticks_in_era_iff, ?_, ?_, ofInstant_later⟩
  · intro t found
    refine ⟨Instant.eq_of_count t.nanos_toInstant_lt regular ?_, ofInstant_of_ok found⟩
    calc t.toInstant.count
      _ = nearestNanos t.ticks := t.count_toInstant
      _ = nearestNanos (nearestTicks i.count) := by
        rw [← ofInstant?_eq_ok_iff.1 found, Instant.ticks_eq_nearestTicks regular]
      _ = i.count := nearestNanos_nearestTicks i.count
  · intro j s t regular' earlier found found'
    rw [compare_eq_lt_iff, ← Int.ofNat_lt, ← ofInstant?_eq_ok_iff.1 found,
      ← ofInstant?_eq_ok_iff.1 found', Instant.ticks_eq_nearestTicks regular,
      Instant.ticks_eq_nearestTicks regular']
    exact nearestTicks_lt ((Instant.lt_iff_count regular regular').1 earlier)

/-- The last nanosecond of a second in 1905, and the nanosecond behind it. -/
theorem instant_restored_in_1905 :
    let i : Instant := ⟨-2045415594, 999999999⟩
    let j : Instant := ⟨-2045415593, 0⟩
    let s : TimeTag := ⟨163573206, 4294967292⟩
    let t : TimeTag := ⟨163573207, 0⟩
    (i.nanos < nanosPerSecond ∧ j.nanos < nanosPerSecond ∧ i < j) ∧
      (ofInstant? i = .ok s ∧ ofInstant? j = .ok t) ∧ (Instant.epoch ≤ i ∧ i < Instant.eraEnd) ∧
      s.toInstant = i ∧ ofInstant i = s ∧ compare s t = .lt ∧
      ofInstant (i.later (1 * secondsPerEra)) = s := by
  intro i j s t
  have regular : i.nanos < nanosPerSecond := by decide
  have regular' : j.nanos < nanosPerSecond := by decide
  have earlier : i < j := by decide
  have found : ofInstant? i = .ok s := ofInstant?_eq_ok_iff.2 (by decide)
  have found' : ofInstant? j = .ok t := ofInstant?_eq_ok_iff.2 (by decide)
  obtain ⟨inside, restored, increasing, periodic⟩ := instant_restored regular
  obtain ⟨back, wrapped⟩ := restored s found
  exact ⟨⟨regular, regular', earlier⟩, ⟨found, found'⟩, inside.1 ⟨s, found⟩, back, wrapped,
    increasing j s t regular' earlier found found', (periodic i 1).trans wrapped⟩

/-- **A time tag is nearly found again from its instant.** The instant of a time tag has a time tag
unless one of the last two ticks of the era is rounded up to its end, and it is at most two ticks
apart; wrapping changes nothing then.  The last two ticks wrap to the beginning of the era. -/
theorem ticks_nearly_restored (t : TimeTag) :
    ((∃ s, ofInstant? t.toInstant = .ok s) ↔ t.ticks + 2 < eraTicks) ∧
    (∀ s, ofInstant? t.toInstant = .ok s →
      |(s.ticks : Int) - t.ticks| ≤ 2 ∧ ofInstant t.toInstant = s) ∧
    (eraTicks ≤ t.ticks + 2 → t.toInstant = Instant.eraEnd ∧
      ofInstant? t.toInstant = .error (.instant Instant.eraEnd) ∧ ofInstant t.toInstant = ⟨0, 0⟩) := by
  refine ⟨?_, ?_, ?_⟩
  · rw [exists_ofInstant?_iff, ticks_toInstant, nearestTicks_in_era_iff, nearestNanos_in_era_iff]
    omega
  · intro s found
    refine ⟨?_, ofInstant_of_ok found⟩
    rw [← ofInstant?_eq_ok_iff.1 found, ticks_toInstant]
    exact nearestTicks_nearestNanos t.ticks
  · intro last
    have ended : t.toInstant = Instant.eraEnd := by
      apply Instant.eq_of_count t.nanos_toInstant_lt (by decide)
      rw [count_toInstant, Instant.count_eraEnd]
      have within := t.ticks_lt
      exact nearestNanos_last (by omega) (by omega)
    rw [ended]
    exact ⟨rfl, rfl, rfl⟩

/-- A fraction that is rounded up to the next second, and one that is rounded up to the next era. -/
theorem ticks_nearly_restored_when_rounded_up :
    let t : TimeTag := ⟨5, 4294967295⟩
    let last : TimeTag := ⟨4294967295, 4294967295⟩
    (ofInstant? t.toInstant = .ok ⟨6, 0⟩ ∧ ((⟨6, 0⟩ : TimeTag).ticks : Int) - t.ticks = 1 ∧
      |((⟨6, 0⟩ : TimeTag).ticks : Int) - t.ticks| ≤ 2 ∧ ofInstant t.toInstant = ⟨6, 0⟩) ∧
    (eraTicks ≤ last.ticks + 2 ∧ last.toInstant = Instant.eraEnd ∧
      ofInstant last.toInstant = ⟨0, 0⟩) := by
  intro t last
  have found : ofInstant? t.toInstant = .ok ⟨6, 0⟩ := ofInstant?_eq_ok_iff.2 (by decide)
  have wraps : eraTicks ≤ last.ticks + 2 := by decide
  obtain ⟨-, restored, -⟩ := ticks_nearly_restored t
  obtain ⟨-, -, ended⟩ := ticks_nearly_restored last
  obtain ⟨near, same⟩ := restored _ found
  obtain ⟨rounded, -, wrapped⟩ := ended wraps
  exact ⟨⟨found, by decide, near, same⟩, wraps, rounded, wrapped⟩

/-- **The last ticks of the era are lost.** The last but one is rounded up to the end of the era, which
has no time tag, and wraps to the beginning. -/
theorem last_ticks_leave_era :
    let t : TimeTag := ⟨4294967295, 4294967294⟩
    t.toInstant = Instant.eraEnd ∧ ofInstant? t.toInstant = .error (.instant Instant.eraEnd) ∧
      ofInstant t.toInstant = ⟨0, 0⟩ := by
  intro t
  have ended : t.toInstant = Instant.eraEnd := by decide
  rw [ended]
  exact ⟨rfl, rfl, rfl⟩

end TimeTag

end SoundControl.Time
