import SoundControl.Proofs.Number.Scaling
import SoundControl.Proofs.Time.Conversion

/-! # Time tags moved by a number of seconds

The ticks of an offset are its seconds in ticks, to the nearest, held within the wide integers.  Offsets
that are held back are whole eras, and so is the least wide integer, so nothing is lost there; the greatest
is one tick short of whole eras, and together with any ticks it leaves the range.

* **`TimeTag.offsetTicks_eq`** — the ticks of an offset, from its exact value.
* **`TimeTag.offsetTicks_small`**, **`TimeTag.offsetTicks_large`** — offsets below 2 ^ 95 seconds, and all
  others.
* **`TimeTag.ticks_plus_small`**, **`TimeTag.ticks_plus_large`** — the ticks of a time tag that is moved.
* **`TimeTag.offset_modulo_era`** — moving is exact modulo the era, up to 2 ^ 95 seconds. -/

namespace SoundControl.Time

open Number

namespace TimeTag

variable {t : TimeTag} {x : Binary64} {v : ℚ}

/-! ## The ticks of an offset -/

/-- **The ticks of an offset** are those nearest to its exact value, held within the wide integers. -/
theorem offsetTicks_eq (value : x.value? = some v) :
    offsetTicks x = Wide.clamp (nearestAway (v * 2 ^ 32)) := by
  rw [offsetTicks]
  rcases Binary.scaleUp_cases (by decide) value 32 with same | ⟨infinite, beyond⟩
  · simp only [Binary.nearestInt?_eq same]
  · -- An infinite product is beyond all wide integers, and so is the nearest integer.
    have far : (2 : ℚ) ^ 128 ≤ |v * 2 ^ 32| :=
      (pow_le_pow_right₀ (by norm_num) (by decide)).trans beyond
    simp only [infinite, Binary.nearestInt?_infinite, Binary.isNaN_infinite,
      Binary.isNegative_infinite, decide_eq_true_eq, Bool.false_eq_true, if_false]
    split
    next negative =>
      have least : nearestAway (v * 2 ^ 32) ≤ Wide.least := by
        apply nearestAway_le
        rw [abs_of_neg (by linarith)] at far
        norm_num [Wide.least] at far ⊢
        linarith
      simp only [Wide.clamp, Wide.least, Wide.greatest] at least ⊢
      omega
    next positive =>
      have greatest : Wide.greatest ≤ nearestAway (v * 2 ^ 32) := by
        apply le_nearestAway
        rw [abs_of_nonneg (by linarith)] at far
        norm_num [Wide.greatest] at far ⊢
        linarith
      simp only [Wide.clamp, Wide.least, Wide.greatest] at greatest ⊢
      omega

/-- Offsets from 2 ^ 84 seconds on are whole eras. -/
theorem exists_eras (value : x.value? = some v) (large : 2 ^ 84 ≤ |v|) :
    ∃ k : ℤ, v = k * 2 ^ 32 ∧ nearestAway (v * 2 ^ 32) = k * eraTicks := by
  obtain ⟨k, rfl⟩ := Binary.exists_multiple value 32 large
  refine ⟨k, rfl, ?_⟩
  have whole : (k : ℚ) * 2 ^ 32 * 2 ^ 32 = (k * eraTicks : ℤ) := by
    norm_num [eraTicks, mul_assoc]
  rw [whole, nearestAway_intCast]

/-- Offsets below 2 ^ 95 seconds are an era or more away from leaving the wide integers above. -/
theorem nearestAway_small (value : x.value? = some v) (small : v < 2 ^ 95) :
    nearestAway (v * 2 ^ 32) + eraTicks ≤ Wide.greatest + 1 := by
  by_cases large : 2 ^ 84 ≤ |v|
  · obtain ⟨k, rfl, eras⟩ := exists_eras value large
    have limit : (k : ℚ) < (2 ^ 63 : ℤ) := by
      norm_num at small ⊢
      linarith
    have : k < 2 ^ 63 := by exact_mod_cast limit
    rw [eras]
    simp only [eraTicks, Wide.greatest]
    omega
  · have : nearestAway (v * 2 ^ 32) ≤ 2 ^ 116 := by
      apply nearestAway_le
      have := (abs_lt.1 (not_le.1 large)).2
      norm_num at this ⊢
      linarith
    simp only [eraTicks, Wide.greatest]
    omega

/-- Offsets from 2 ^ 95 seconds on are whole eras, and more than all wide integers. -/
theorem nearestAway_large (value : x.value? = some v) (large : 2 ^ 95 ≤ v) :
    (eraTicks : ℤ) ∣ nearestAway (v * 2 ^ 32) ∧ Wide.greatest < nearestAway (v * 2 ^ 32) := by
  have wide : 2 ^ 84 ≤ |v| := by
    rw [abs_of_nonneg (by linarith)]
    linarith
  obtain ⟨k, rfl, eras⟩ := exists_eras value wide
  have limit : ((2 ^ 63 : ℤ) : ℚ) ≤ k := by
    norm_num at large ⊢
    linarith
  have : 2 ^ 63 ≤ k := by exact_mod_cast limit
  rw [eras]
  refine ⟨Int.dvd_mul_left .., ?_⟩
  simp only [eraTicks, Wide.greatest]
  omega

/-- An offset of the other sign has the opposite ticks. -/
theorem nearestAway_opposite (v : ℚ) :
    nearestAway (-v * 2 ^ 32) = -nearestAway (v * 2 ^ 32) := by
  rw [neg_mul, nearestAway_neg]

/-- **Offsets below 2 ^ 95 seconds** have the nearest ticks, up to whole eras, and leave room for those of
a time tag. -/
theorem offsetTicks_small (value : x.value? = some v) (small : v < 2 ^ 95) :
    (eraTicks : ℤ) ∣ nearestAway (v * 2 ^ 32) - offsetTicks x ∧
      Wide.least ≤ offsetTicks x ∧ offsetTicks x + eraTicks ≤ Wide.greatest + 1 := by
  have above := nearestAway_small value small
  rw [offsetTicks_eq value]
  by_cases below : nearestAway (v * 2 ^ 32) < Wide.least
  · -- Held back, these are whole eras before and after.
    have opposite := Binary.value?_neg value
    have mirrored := nearestAway_opposite v
    have large : 2 ^ 95 ≤ -v := by
      by_contra other
      have := nearestAway_small opposite (not_le.1 other)
      simp only [mirrored, eraTicks, Wide.least, Wide.greatest] at *
      omega
    obtain ⟨eras, -⟩ := nearestAway_large opposite large
    rw [mirrored] at eras
    simp only [Wide.clamp, eraTicks, Wide.least, Wide.greatest] at *
    omega
  · simp only [Wide.clamp, eraTicks, Wide.least, Wide.greatest] at *
    omega

/-- **Offsets from 2 ^ 95 seconds on** have the greatest wide integer for their ticks. -/
theorem offsetTicks_large (value : x.value? = some v) (large : 2 ^ 95 ≤ v) :
    offsetTicks x = Wide.greatest := by
  obtain ⟨-, above⟩ := nearestAway_large value large
  rw [offsetTicks_eq value]
  simp only [Wide.clamp, Wide.least, Wide.greatest] at *
  omega

/-! ## Moving -/

/-- Below 2 ^ 95 seconds, moving is exact modulo the era. -/
theorem ticks_plus_small (t : TimeTag) (value : x.value? = some v) (small : v < 2 ^ 95) :
    ((t.plus x).ticks : ℤ) = (t.ticks + nearestAway (v * 2 ^ 32)) % eraTicks := by
  obtain ⟨eras, -⟩ := offsetTicks_small value small
  rw [plus, ticks_ofTicks]
  simp only [eraTicks] at *
  omega

/-- From 2 ^ 95 seconds on, a time tag is moved to the tick before. -/
theorem ticks_plus_large (t : TimeTag) (value : x.value? = some v) (large : 2 ^ 95 ≤ v) :
    ((t.plus x).ticks : ℤ) = (t.ticks - 1) % eraTicks := by
  rw [plus, ticks_ofTicks, offsetTicks_large value large]
  simp only [eraTicks, Wide.greatest]
  omega

/-- The tick before is not what whole eras lead to. -/
theorem plus_exact_iff (t : TimeTag) (value : x.value? = some v) :
    ((t.plus x).ticks : ℤ) = (t.ticks + nearestAway (v * 2 ^ 32)) % eraTicks ↔ v < 2 ^ 95 := by
  refine ⟨fun moved => ?_, ticks_plus_small t value⟩
  by_contra large
  obtain ⟨eras, -⟩ := nearestAway_large value (not_lt.1 large)
  rw [ticks_plus_large t value (not_lt.1 large)] at moved
  simp only [eraTicks] at *
  omega

/-- The sum of the ticks is a wide integer, unless the greatest of them is added to some. -/
theorem holds_plus_iff (t : TimeTag) (value : x.value? = some v) :
    Wide.holds (t.ticks + offsetTicks x) ↔ v < 2 ^ 95 ∨ t.ticks = 0 := by
  have within := t.ticks_lt
  rw [Wide.holds, Bool.and_eq_true, decide_eq_true_eq, decide_eq_true_eq]
  by_cases small : v < 2 ^ 95
  · obtain ⟨-, least, room⟩ := offsetTicks_small value small
    simp only [small, true_or, iff_true]
    omega
  · rw [offsetTicks_large value (not_lt.1 small)]
    simp only [small, false_or, Wide.least, Wide.greatest]
    omega

/-- **Moving there and back** by fewer than 2 ^ 95 seconds leads to the same time tag. -/
theorem minus_plus_iff (t : TimeTag) (value : x.value? = some v) :
    (t.plus x).minus x = t ↔ |v| < 2 ^ 95 := by
  have opposite := Binary.value?_neg value
  have within := t.ticks_lt
  have same : (t.plus x).minus x = t ↔ (((t.plus x).minus x).ticks : ℤ) = t.ticks :=
    ⟨fun back => by rw [back], fun back => eq_of_ticks (Int.ofNat_inj.1 back)⟩
  -- One bound is that of the way there, the other that of the way back.
  rw [same, minus, abs_lt]
  rcases lt_or_ge v (2 ^ 95) with after | after
  · rcases lt_or_ge (-v) (2 ^ 95) with before | before
    · rw [ticks_plus_small _ opposite before, ticks_plus_small _ value after, nearestAway_opposite]
      refine iff_of_true ?_ ⟨by linarith, after⟩
      simp only [eraTicks] at *
      omega
    · -- Whole eras before, and then one tick short of whole eras after.
      obtain ⟨eras, -⟩ := nearestAway_large opposite before
      rw [ticks_plus_large _ opposite before, ticks_plus_small _ value after]
      rw [nearestAway_opposite] at eras
      refine iff_of_false (fun back => ?_) fun inside => before.not_gt (neg_lt.1 inside.1)
      simp only [eraTicks] at *
      omega
  · -- One tick short of whole eras after, and then whole eras before.
    obtain ⟨eras, -⟩ := nearestAway_large value after
    rw [ticks_plus_small _ opposite (by linarith), ticks_plus_large _ value after,
      nearestAway_opposite]
    refine iff_of_false (fun back => ?_) fun inside => after.not_gt inside.2
    simp only [eraTicks] at *
    omega

/-- **Moving a time tag is exact modulo the era up to 2 ^ 95 seconds.** A number of seconds stands for the
nearest number of ticks, halves away from zero.  Below 2 ^ 95 seconds, moving a time tag adds or takes
away these ticks modulo the era, and the sum of the ticks is a wide integer; there and back is the same
time tag.  From 2 ^ 95 seconds on, the ticks are whole eras, but moving by them is held back at the
greatest wide integer: it leads to the tick before, over a sum beyond the wide integers unless the time
tag is the first of the era. -/
theorem offset_modulo_era (t : TimeTag) (value : x.value? = some v) :
    let R := nearestAway (v * 2 ^ 32)
    ((((t.plus x).ticks : ℤ) = (t.ticks + R) % eraTicks ↔ v < 2 ^ 95) ∧
      (Wide.holds (t.ticks + offsetTicks x) ↔ v < 2 ^ 95 ∨ t.ticks = 0) ∧
      (2 ^ 95 ≤ v → ((t.plus x).ticks : ℤ) = (t.ticks - 1) % eraTicks)) ∧
    ((((t.minus x).ticks : ℤ) = (t.ticks - R) % eraTicks ↔ -2 ^ 95 < v) ∧
      (Wide.holds (t.ticks + offsetTicks x.neg) ↔ -2 ^ 95 < v ∨ t.ticks = 0) ∧
      (v ≤ -2 ^ 95 → ((t.minus x).ticks : ℤ) = (t.ticks - 1) % eraTicks)) ∧
    ((t.plus x).minus x = t ↔ |v| < 2 ^ 95) := by
  intro R
  have opposite := Binary.value?_neg value
  have mirrored : (t.ticks : ℤ) - R = t.ticks + nearestAway (-v * 2 ^ 32) := by
    rw [nearestAway_opposite, ← sub_eq_add_neg]
  have swapped : -2 ^ 95 < v ↔ -v < 2 ^ 95 := neg_lt
  refine ⟨⟨plus_exact_iff t value, holds_plus_iff t value, ticks_plus_large t value⟩, ?_,
    minus_plus_iff t value⟩
  rw [mirrored, swapped]
  exact ⟨plus_exact_iff t opposite, holds_plus_iff t opposite,
    fun before => ticks_plus_large t opposite (le_neg.1 before)⟩

/-- Half a tick counts as a whole one and is found back from; 2 ^ 95 seconds lead to the tick before. -/
theorem offset_modulo_era_at_half_tick :
    let t : TimeTag := ⟨4294967295, 4294967295⟩
    let half : Binary64 := .ofBits _ 0x3de0000000000000
    let far : Binary64 := .ofBits _ 0x45e0000000000000
    (half.value? = some (1 / 2 ^ 33) ∧ ((t.plus half).ticks : ℤ) = (t.ticks + 1) % eraTicks ∧
      (t.plus half).minus half = t) ∧
    far.value? = some (2 ^ 95) ∧ ((t.plus far).ticks : ℤ) = (t.ticks - 1) % eraTicks := by
  intro t half far
  have value : half.value? = some (1 / 2 ^ 33) := by decide +kernel
  have value' : far.value? = some (2 ^ 95) := by decide +kernel
  have tick : nearestAway (1 / 2 ^ 33 * 2 ^ 32) = 1 := by decide +kernel
  obtain ⟨⟨moved, -, -⟩, -, back⟩ := offset_modulo_era t value
  obtain ⟨⟨-, -, lost⟩, -, -⟩ := offset_modulo_era t value'
  refine ⟨⟨value, ?_, back.2 (by norm_num [abs_lt])⟩, value', lost le_rfl⟩
  rw [moved.2 (by norm_num), tick]

/-- **A tick is lost in an offset of whole eras.** 2 ^ 95 seconds behind the beginning of the era is its last
tick, and back from there is no further; behind the next tick, the sum is beyond the wide integers. -/
theorem whole_eras_lose_tick :
    let t : TimeTag := ⟨0, 0⟩
    let x : Binary64 := .ofBits _ 0x45e0000000000000
    x.value? = some (2 ^ 95) ∧ nearestAway (2 ^ 95 * 2 ^ 32) % eraTicks = 0 ∧
      t.plus x = ⟨4294967295, 4294967295⟩ ∧ (t.plus x).minus x = ⟨4294967295, 4294967295⟩ ∧
      ¬Wide.holds ((⟨0, 1⟩ : TimeTag).ticks + offsetTicks x) := by
  decide +kernel

end TimeTag

end SoundControl.Time
