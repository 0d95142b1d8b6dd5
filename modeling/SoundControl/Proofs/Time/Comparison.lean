import SoundControl.Proofs.Time.Conversion

/-! # Time tags compared with instants

A time tag is compared with the time tag of an instant, so the ticks of the instant count modulo the era.
Within the era that is the order of time; outside of it, an instant stands where the era has it again.

* **`TimeTag.compareAt_eq`**, **`TimeTag.isAt_iff`** — order and equality, told of ticks.
* **`TimeTag.compareAt_eq_iff_in_time`** — when the order is that of time.
* **`TimeTag.compared_modulo_era`** — all of it together. -/

namespace SoundControl.Time

namespace Instant

variable {i : Instant}

/-- The ticks of instants before the era are negative, -/
theorem ticks_neg_iff : i.ticks < 0 ↔ i < epoch := by
  simp only [ticks, lt_iff, epoch, ticksPerSecond, nanosPerSecond, secondsTo1970]
  omega

/-- and those of instants after it are more than an era has. -/
theorem eraTicks_le_ticks_iff : eraTicks ≤ i.ticks ↔ eraEnd ≤ i := by
  simp only [ticks, le_iff, lt_iff, eraEnd, epoch, later, secondsPerEra, eraTicks, ticksPerSecond,
    nanosPerSecond, secondsTo1970]
  omega

end Instant

namespace TimeTag

variable {t : TimeTag} {i : Instant}

/-- The time tag of an instant has its ticks, modulo the era. -/
theorem ticks_ofInstant (i : Instant) : ((ofInstant i).ticks : ℤ) = i.ticks % eraTicks :=
  ticks_ofTicks i.ticks

/-- **A time tag is compared with the ticks of an instant,** modulo the era. -/
theorem compareAt_eq (t : TimeTag) (i : Instant) :
    compareAt t i = compare (t.ticks : ℤ) (i.ticks % eraTicks) := by
  rw [← ticks_ofInstant]
  simp only [compareAt, compare, compareOfLessAndEq, Int.ofNat_lt, Int.ofNat_inj]

/-- A time tag equals an instant that has its ticks, modulo the era. -/
theorem isAt_iff : t.isAt i ↔ (t.ticks : ℤ) = i.ticks % eraTicks := by
  rw [isAt, decide_eq_true_eq, ← ticks_ofInstant, Int.ofNat_inj]
  exact ⟨congrArg ticks, eq_of_ticks⟩

/-- **The order is that of time** within the era; before it and after it, where the time tag stands on the
same side of the ticks modulo the era. -/
theorem compareAt_eq_iff_in_time (t : TimeTag) (i : Instant) :
    compareAt t i = compare (t.ticks : ℤ) i.ticks ↔
      (Instant.epoch ≤ i ∧ i < Instant.eraEnd) ∨
      (i < Instant.epoch ∧ i.ticks % eraTicks < t.ticks) ∨
      (Instant.eraEnd ≤ i ∧ (t.ticks : ℤ) < i.ticks % eraTicks) := by
  have within := t.ticks_lt
  rw [compareAt_eq, ← Instant.ticks_in_era_iff, ← Instant.ticks_neg_iff,
    ← Instant.eraTicks_le_ticks_iff]
  rcases lt_or_ge i.ticks 0 with before | start
  · -- Time tags come after all instants before the era.
    have after : compare (t.ticks : ℤ) i.ticks = .gt := compare_gt_iff_gt.2 (by omega)
    rw [after, compare_gt_iff_gt]
    omega
  · rcases lt_or_ge i.ticks eraTicks with inside | after
    · rw [Int.emod_eq_of_lt start inside]
      simp [start, inside]
    · have before : compare (t.ticks : ℤ) i.ticks = .lt := compare_lt_iff_lt.2 (by omega)
      rw [before, compare_lt_iff_lt]
      omega

/-- **Time tags are compared modulo the era.** The order of a time tag and an instant is that of their
ticks, those of the instant modulo the era, and they are equal if these are.  So it is the order of time
within the era, and before and after it only where the time tag stands on the same side of the ticks modulo
the era.  Ticks are equal where time tag and instant are, within the era. -/
theorem compared_modulo_era (t : TimeTag) (i : Instant) :
    compareAt t i = compare (t.ticks : ℤ) (i.ticks % eraTicks) ∧
    (t.isAt i ↔ (t.ticks : ℤ) = i.ticks % eraTicks) ∧
    (compareAt t i = compare (t.ticks : ℤ) i.ticks ↔
      (Instant.epoch ≤ i ∧ i < Instant.eraEnd) ∨
      (i < Instant.epoch ∧ i.ticks % eraTicks < t.ticks) ∨
      (Instant.eraEnd ≤ i ∧ (t.ticks : ℤ) < i.ticks % eraTicks)) ∧
    ((t.ticks : ℤ) = i.ticks ↔ t.isAt i ∧ Instant.epoch ≤ i ∧ i < Instant.eraEnd) := by
  refine ⟨compareAt_eq t i, isAt_iff, compareAt_eq_iff_in_time t i, ?_⟩
  have within := t.ticks_lt
  rw [isAt_iff, ← Instant.ticks_in_era_iff]
  constructor
  · intro same
    rw [← same]
    exact ⟨(Int.emod_eq_of_lt (by omega) (by omega)).symm, by omega, by omega⟩
  · rintro ⟨same, start, inside⟩
    rwa [Int.emod_eq_of_lt start inside] at same

/-- The last second before the era comes after its third second, and the end of the era is equal to its
beginning. -/
theorem instants_beyond_era_recur :
    let t : TimeTag := ⟨2, 0⟩
    let before : Instant := ⟨-2208988801, 999999999⟩
    (compareAt t before = .lt ∧ compare (t.ticks : ℤ) before.ticks = .gt) ∧
    (⟨0, 0⟩ : TimeTag).isAt Instant.eraEnd ∧ compareAt ⟨0, 0⟩ Instant.eraEnd = .eq ∧
      (⟨0, 0⟩ : TimeTag).ticks < Instant.eraEnd.ticks := by
  decide +kernel

end TimeTag

end SoundControl.Time
