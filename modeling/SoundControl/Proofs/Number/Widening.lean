import Mathlib.Tactic.Ring
import SoundControl.Proofs.Number.Encoding

/-! # Numbers survive a wider format

A finite magnitude is a number of equal steps, each a power of two of units: the steps are units
below the second binade, and otherwise there are so many that the leading digit is set.  A wider format
has room for the same steps or smaller ones, so nothing is rounded on the way there and back.

* **`Format.Steps`** — as many steps as a format has for a step width.
* **`Format.Steps.nearestRank_eq`** — such a magnitude is nearest to its own rank.
* **`Format.Within`** — a format whose numbers are all numbers of another.
* **`Binary.convert_convert`** — a number is the same again after a wider format. -/

namespace SoundControl.Number

namespace Format

variable {f g : Format}

theorem binade_pos (f : Format) : 0 < f.binade := by
  rw [binade, Nat.one_shiftLeft]
  exact Nat.two_pow_pos _

theorem one_pos (f : Format) : 0 < f.one := by
  rw [one, Nat.one_shiftLeft]
  exact Nat.two_pow_pos _

/-! ## Steps -/

/-- **As many steps as there are** of `2 ^ width` units: fewer than two binades, and at least one
unless a step is a unit. -/
structure Steps (f : Format) (count width : Nat) : Prop where
  /-- The count has no more digits than the format. -/
  fits : count < 2 * f.binade
  /-- The leading digit is set. -/
  leading : width = 0 ∨ f.binade ≤ count

/-- Every rank is that of a number of steps. -/
theorem exists_steps (f : Format) (rank : Nat) :
    ∃ count width, f.Steps count width ∧ rank = count + width * f.binade := by
  have positive := f.binade_pos
  by_cases low : rank < f.binade
  · exact ⟨rank, 0, ⟨by omega, .inl rfl⟩, by simp⟩
  · have digits : rank % f.binade < f.binade := Nat.mod_lt _ positive
    refine ⟨f.binade + rank % f.binade, rank / f.binade - 1, ⟨by omega, .inr (by omega)⟩, ?_⟩
    have higher : 0 < rank / f.binade := Nat.div_pos (by omega) positive
    have parts := Nat.div_add_mod rank f.binade
    obtain ⟨more, count⟩ : ∃ more, rank / f.binade = more + 1 := ⟨rank / f.binade - 1, by omega⟩
    rw [count, Nat.mul_add, Nat.mul_comm] at parts
    rw [count, Nat.add_sub_cancel]
    omega

namespace Steps

variable {count width : Nat}

/-- **The magnitude of steps.** -/
theorem units_eq (steps : f.Steps count width) :
    f.units (count + width * f.binade) = count * 2 ^ width := by
  obtain ⟨fits, leading⟩ := steps
  have positive := f.binade_pos
  rw [units]
  split
  next low =>
    -- Below the first binade there is nothing but units.
    obtain rfl : width = 0 := by
      by_contra nonzero
      have : f.binade ≤ width * f.binade := Nat.le_mul_of_pos_left _ (Nat.pos_of_ne_zero nonzero)
      omega
    simp
  next high =>
    have leading : f.binade ≤ count := by
      rcases leading with rfl | leading
      · omega
      · exact leading
    obtain ⟨digits, rfl⟩ := Nat.exists_eq_add_of_le leading
    have rank : f.binade + digits + width * f.binade = digits + (width + 1) * f.binade := by ring
    rw [rank, Nat.add_mul_mod_self_right, Nat.mod_eq_of_lt (by omega),
      Nat.add_mul_div_right _ _ positive, Nat.div_eq_of_lt (by omega), Nat.zero_add,
      Nat.add_sub_cancel, Nat.shiftLeft_eq]

/-- The digits in front of those that the format has are as many as the step width says. -/
theorem log2_sub (steps : f.Steps count width) :
    (count * 2 ^ width).log2 - f.fractionBits = width := by
  obtain ⟨fits, leading⟩ := steps
  rw [binade, Nat.one_shiftLeft] at fits leading
  rw [← Nat.pow_succ'] at fits
  rcases leading with rfl | leading
  · rcases Nat.eq_zero_or_pos count with rfl | positive
    · simp
    · have := (Nat.log2_lt positive.ne').2 fits
      rw [pow_zero, Nat.mul_one]
      omega
  · have positive : 0 < count * 2 ^ width :=
      Nat.mul_pos (Nat.lt_of_lt_of_le (Nat.two_pow_pos _) leading) (Nat.two_pow_pos _)
    have digits : (count * 2 ^ width).log2 = f.fractionBits + width := by
      rw [Nat.log2_eq_iff positive.ne', Nat.pow_add, Nat.add_right_comm, Nat.pow_add]
      exact ⟨Nat.mul_le_mul_right _ leading, Nat.mul_lt_mul_of_pos_right fits (Nat.two_pow_pos _)⟩
    rw [digits, Nat.add_sub_cancel_left]

/-- **A number of steps is nearest to its own rank.** -/
theorem nearestRank_eq (steps : f.Steps count width) {d : Nat} (positive : 0 < d) :
    f.nearestRank (count * 2 ^ width * d) d = min (count + width * f.binade) f.infinityRank := by
  have quotient : divideToEven (count * 2 ^ width * d) (d * 2 ^ width) = count := by
    have step : 0 < d * 2 ^ width := Nat.mul_pos positive (Nat.two_pow_pos _)
    rw [Nat.mul_assoc, Nat.mul_comm (2 ^ width), divideToEven, Nat.mul_mod_left,
      Nat.mul_div_cancel _ step]
    simp [step]
  rw [nearestRank, Nat.mul_div_cancel _ positive]
  simp only [steps.log2_sub, Nat.shiftLeft_eq, quotient]

/-- Too few digits for a step width are as many of smaller steps. -/
theorem exists_smaller (fits : count < 2 * g.binade) (width : Nat) : ∃ more smaller,
    g.Steps more smaller ∧ smaller ≤ width ∧ more * 2 ^ smaller = count * 2 ^ width := by
  induction width generalizing count with
  | zero => exact ⟨count, 0, ⟨fits, .inl rfl⟩, le_rfl, rfl⟩
  | succ width ih =>
    by_cases leading : g.binade ≤ count
    · exact ⟨count, width + 1, ⟨fits, .inr leading⟩, le_rfl, rfl⟩
    · obtain ⟨more, smaller, steps, below, same⟩ := @ih (2 * count) (by omega)
      exact ⟨more, smaller, steps, by omega, by rw [same]; ring⟩

end Steps

/-- Only zero has no units. -/
theorem units_eq_zero_iff {rank : Nat} : f.units rank = 0 ↔ rank = 0 := by
  have positive := f.binade_pos
  rw [units]
  split
  next => rfl
  next high =>
    rw [Nat.shiftLeft_eq, Nat.mul_eq_zero]
    have := Nat.two_pow_pos (rank / f.binade - 1)
    omega

/-! ## Formats within formats -/

/-- **Every number of a format is one of another:** that one has as many digits, steps as small, and
as many binades above. -/
structure Within (f g : Format) : Prop where
  /-- There are numbers that are neither zero nor infinite. -/
  numbers : 2 ≤ f.exponentBits
  /-- The digits fit. -/
  digits : f.fractionBits ≤ g.fractionBits
  /-- A unit is a number of the smaller units. -/
  units : f.unitPlaces ≤ g.unitPlaces
  /-- The greatest numbers fit. -/
  room : 2 ^ f.exponentBits + (g.unitPlaces - f.unitPlaces) ≤ 2 ^ g.exponentBits

namespace Within

/-- The digits of the one format fit into the other. -/
theorem binade_le (within : f.Within g) : f.binade ≤ g.binade := by
  rw [binade, binade, Nat.one_shiftLeft, Nat.one_shiftLeft]
  exact Nat.pow_le_pow_right (by decide) within.digits

/-- One, in the smaller units. -/
theorem one_eq (within : f.Within g) : g.one = f.one * 2 ^ (g.unitPlaces - f.unitPlaces) := by
  rw [one, one, Nat.one_shiftLeft, Nat.one_shiftLeft, ← Nat.pow_add,
    Nat.add_sub_cancel' within.units]

/-- There are exponents for zero, for infinity, and for numbers. -/
theorem four_le (within : f.Within g) : 4 ≤ 2 ^ f.exponentBits :=
  Nat.pow_le_pow_right (n := 2) (by decide) within.numbers

/-- There is something below infinity. -/
theorem infinityRank_pos (within : f.Within g) : 0 < f.infinityRank := by
  have exponents := within.four_le
  rw [infinityRank, Nat.one_shiftLeft]
  exact Nat.mul_pos (by omega) f.binade_pos

/-- Steps below infinity are narrower than there are exponents. -/
theorem width_lt (within : f.Within g) {count width : Nat} (steps : f.Steps count width)
    (finite : count + width * f.binade < f.infinityRank) : width + 2 < 2 ^ f.exponentBits := by
  have exponents := within.four_le
  rcases steps.leading with rfl | leading
  · omega
  · rw [infinityRank, Nat.one_shiftLeft] at finite
    have : (width + 1) * f.binade < (2 ^ f.exponentBits - 1) * f.binade := by
      rw [Nat.add_mul]
      omega
    have := Nat.lt_of_mul_lt_mul_right this
    omega

/-- **A finite magnitude has a rank in the other format,** and is not rounded on the way there. -/
theorem exists_rank (within : f.Within g) {rank : Nat} (finite : rank < f.infinityRank) :
    ∃ other, other < g.infinityRank ∧ g.nearestRank (f.units rank * g.one) f.one = other ∧
      g.units other = f.units rank * 2 ^ (g.unitPlaces - f.unitPlaces) := by
  obtain ⟨count, width, steps, rfl⟩ := f.exists_steps rank
  have fits : count < 2 * g.binade := by
    have := steps.fits
    have := within.binade_le
    omega
  -- The same magnitude, told in the smaller units, is a number of steps of the other format.
  obtain ⟨more, smaller, others, below, same⟩ :=
    Steps.exists_smaller fits (width + (g.unitPlaces - f.unitPlaces))
  have magnitude : more * 2 ^ smaller =
      f.units (count + width * f.binade) * 2 ^ (g.unitPlaces - f.unitPlaces) := by
    rw [same, steps.units_eq, Nat.pow_add, Nat.mul_assoc]
  -- There are as many more exponents as the unit is smaller.
  have small : more + smaller * g.binade < g.infinityRank := by
    have narrow := within.width_lt steps finite
    have room := within.room
    have binades : (smaller + 2) * g.binade ≤ (2 ^ g.exponentBits - 1) * g.binade :=
      Nat.mul_le_mul_right _ (by omega)
    have digits := others.fits
    rw [Nat.add_mul] at binades
    rw [infinityRank, Nat.one_shiftLeft]
    omega
  refine ⟨more + smaller * g.binade, small, ?_, by rw [others.units_eq, magnitude]⟩
  rw [within.one_eq, Nat.mul_left_comm, Nat.mul_comm f.one, ← magnitude,
    others.nearestRank_eq f.one_pos, Nat.min_eq_left small.le]

/-- **The magnitude has its own rank again** on the way back. -/
theorem nearestRank_units (within : f.Within g) {rank other : Nat} (finite : rank < f.infinityRank)
    (same : g.units other = f.units rank * 2 ^ (g.unitPlaces - f.unitPlaces)) :
    f.nearestRank (g.units other * f.one) g.one = rank := by
  obtain ⟨count, width, steps, rfl⟩ := f.exists_steps rank
  rw [same, Nat.mul_assoc, Nat.mul_comm _ f.one, ← within.one_eq, steps.units_eq,
    steps.nearestRank_eq g.one_pos, Nat.min_eq_left finite.le]

end Within

/-- Single precision is within double precision. -/
theorem within_single_double : Within ⟨23, 8⟩ ⟨52, 11⟩ := by
  refine ⟨?_, ?_, ?_, ?_⟩ <;> decide

end Format

/-! ## Numbers -/

namespace Binary

variable {f g : Format}

theorem isInfinite_infinity : (infinity : Binary f).isInfinite := by
  simp [infinity, infinite, ofRank, isInfinite]

/-- **A finite number in a wider format:** of the same sign and magnitude. -/
theorem exists_convert_eq (within : f.Within g) (negative : Bool) {rank : Fin (f.infinityRank + 1)}
    (finite : rank.val < f.infinityRank) : ∃ other : Fin (g.infinityRank + 1),
      other.val < g.infinityRank ∧ convert g (number negative rank) = number negative other ∧
        g.units other = f.units rank * 2 ^ (g.unitPlaces - f.unitPlaces) := by
  obtain ⟨other, small, nearest, same⟩ := within.exists_rank finite
  refine ⟨⟨other, by omega⟩, small, ?_, same⟩
  rw [convert, if_neg finite.ne, round, nearest, ofRank]
  simp [small.le]

/-- A number is as infinite in a wider format. -/
theorem isInfinite_convert (within : f.Within g) (x : Binary f) :
    (x.convert g).isInfinite = x.isInfinite := by
  cases x with
  | nan => rfl
  | number negative rank =>
    by_cases finite : rank.val < f.infinityRank
    · obtain ⟨other, small, wider, -⟩ := exists_convert_eq within negative finite
      rw [wider]
      simp [isInfinite, finite.ne, small.ne]
    · have rank_eq : rank.val = f.infinityRank := by omega
      rw [convert, if_pos rank_eq]
      simp [isInfinite, infinite, ofRank, rank_eq]

/-- Zero is zero in a wider format. -/
theorem isZero_convert (within : f.Within g) {x : Binary f} (zero : x.isZero) :
    (x.convert g).isZero := by
  cases x with
  | nan => contradiction
  | number negative rank =>
    have zero : rank.val = 0 := by simpa [isZero] using zero
    obtain ⟨other, -, wider, same⟩ := exists_convert_eq within negative
      (zero ▸ within.infinityRank_pos)
    rw [Format.units_eq_zero_iff.2 zero, Nat.zero_mul, Format.units_eq_zero_iff] at same
    simp [wider, isZero, same]

/-- **A number is the same again** after a wider format. -/
theorem convert_convert (within : f.Within g) (x : Binary f) : (x.convert g).convert f = x := by
  cases x with
  | nan => rfl
  | number negative rank =>
    by_cases finite : rank.val < f.infinityRank
    · obtain ⟨other, small, wider, same⟩ := exists_convert_eq within negative finite
      rw [wider, convert, if_neg small.ne, round, within.nearestRank_units finite same, ofRank]
      simp [finite.le]
    · have rank_eq : rank.val = f.infinityRank := by omega
      rw [convert, if_pos rank_eq, infinite, ofRank, convert, if_pos (by simp), infinite, ofRank]
      simp [Fin.ext_iff, rank_eq]

end Binary

end SoundControl.Number
