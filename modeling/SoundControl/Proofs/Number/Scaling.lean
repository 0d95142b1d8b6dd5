import Mathlib.Data.Rat.Floor
import Mathlib.Tactic.FieldSimp
import Mathlib.Tactic.Linarith
import SoundControl.Proofs.Number.Widening

/-! # Values of numbers, scaled and rounded

A finite number stands for a fraction.  A product with a power of two has the same digits, so it is not
rounded; it is infinite instead if it is beyond the greatest number.  Large numbers have no digits behind
the point, and multiples of large powers of two are all that is left of them.

* **`nearestAway`** — the integer nearest to a fraction, halves away from zero.
* **`Binary.value?`** — the fraction that a finite number stands for.
* **`Binary.nearestInt?_eq`** — the integer nearest to a number is the one nearest to its value.
* **`Binary.scaleUp_cases`** — a product with a power of two is exact or infinite.
* **`Binary.exists_multiple`** — large numbers are multiples of large powers of two. -/

namespace SoundControl.Number

/-! ## The nearest integer -/

/-- **The integer nearest to a fraction,** halves away from zero. -/
def nearestAway (q : ℚ) : ℤ := if q < 0 then -⌊-q + 1 / 2⌋ else ⌊q + 1 / 2⌋

theorem nearestAway_of_nonneg {q : ℚ} (nonneg : 0 ≤ q) : nearestAway q = ⌊q + 1 / 2⌋ :=
  if_neg nonneg.not_gt

/-- The nearest integer of the other sign. -/
theorem nearestAway_neg (q : ℚ) : nearestAway (-q) = -nearestAway q := by
  rcases lt_trichotomy q 0 with negative | rfl | positive
  · rw [nearestAway_of_nonneg (by linarith), nearestAway, if_pos negative, neg_neg]
  · norm_num [nearestAway]
  · rw [nearestAway_of_nonneg positive.le, nearestAway, if_pos (by linarith), neg_neg]

/-- Integers are nearest to themselves. -/
theorem nearestAway_intCast (n : ℤ) : nearestAway n = n := by
  have half (n : ℤ) : ⌊(n : ℚ) + 1 / 2⌋ = n := by
    rw [Int.floor_intCast_add]
    norm_num
  rw [nearestAway]
  split
  · rw [← Int.cast_neg, half, neg_neg]
  · exact half n

/-- **The nearest integer is at most a half away.** -/
theorem abs_nearestAway_sub_le (q : ℚ) : |(nearestAway q : ℚ) - q| ≤ 1 / 2 := by
  have floor (q : ℚ) : |(⌊q + 1 / 2⌋ : ℚ) - q| ≤ 1 / 2 := by
    have := Int.floor_le (q + 1 / 2)
    have := Int.lt_floor_add_one (q + 1 / 2)
    rw [abs_le]
    constructor <;> linarith
  rw [nearestAway]
  split
  · rw [Int.cast_neg, ← abs_neg]
    convert floor (-q) using 2
    ring
  · exact floor q

/-- Integers below a fraction are below the nearest integer, -/
theorem le_nearestAway {n : ℤ} {q : ℚ} (below : n ≤ q) : n ≤ nearestAway q := by
  have near := (abs_le.1 (abs_nearestAway_sub_le q)).1
  have : (n : ℚ) < nearestAway q + 1 := by linarith
  exact Int.lt_add_one_iff.1 (by exact_mod_cast this)

/-- and those above it are above. -/
theorem nearestAway_le {n : ℤ} {q : ℚ} (above : q ≤ n) : nearestAway q ≤ n := by
  have opposite : -n ≤ nearestAway (-q) := le_nearestAway (by push_cast; linarith)
  rw [nearestAway_neg] at opposite
  omega

/-- The nearest integer of a quotient, by division with a rest. -/
theorem nearestAway_div (n : ℤ) {d : ℕ} (positive : 0 < d) : nearestAway ((n : ℚ) / d) =
    let magnitude : ℤ := (2 * n.natAbs + d) / (2 * d)
    if n < 0 then -magnitude else magnitude := by
  -- The magnitude is rounded, and the sign put back.
  have whole (n : ℕ) : nearestAway (((n : ℤ) : ℚ) / d) = (2 * (n : ℤ) + d) / (2 * d) := by
    have sum : ((n : ℤ) : ℚ) / d + 1 / 2 = ((2 * n + d : ℤ) : ℚ) / ((2 * d : ℕ) : ℚ) := by
      have : (d : ℚ) ≠ 0 := by exact_mod_cast positive.ne'
      push_cast
      field_simp
    rw [nearestAway_of_nonneg (by positivity), sum, Rat.floor_intCast_div_natCast]
    norm_cast
  rcases n.natAbs_eq with same | same
  · have nonneg : ¬n < 0 := by omega
    simp only [if_neg nonneg]
    rw [← whole, ← same]
  · by_cases zero : n = 0
    · subst zero
      exact whole 0
    · have negative : n < 0 := by omega
      simp only [if_pos negative]
      rw [← whole, ← nearestAway_neg, ← neg_div, ← Int.cast_neg, ← same]

namespace Format

variable {f : Format} {rank : ℕ}

/-! ## Magnitudes -/

/-- **Large magnitudes are multiples of large powers of two.** -/
theorem dvd_units {width : ℕ} (large : f.binade * 2 ^ width ≤ f.units rank) :
    2 ^ width ∣ f.units rank := by
  obtain ⟨count, wide, steps, rfl⟩ := f.exists_steps rank
  rw [steps.units_eq] at large ⊢
  -- Fewer than two binades of steps make up the magnitude, so the steps are wide enough.
  have steep : f.binade * 2 ^ width < f.binade * 2 ^ (wide + 1) :=
    calc f.binade * 2 ^ width
      _ ≤ count * 2 ^ wide := large
      _ < 2 * f.binade * 2 ^ wide := Nat.mul_lt_mul_of_pos_right steps.fits (Nat.two_pow_pos _)
      _ = f.binade * 2 ^ (wide + 1) := by ring
  have below := (Nat.pow_lt_pow_iff_right (by decide)).1 (Nat.lt_of_mul_lt_mul_left steep)
  exact Nat.dvd_mul_left_of_dvd (Nat.pow_dvd_pow 2 (by omega)) count

/-- **A magnitude times a power of two** is that of a rank, or beyond all of them. -/
theorem nearestRank_shiftLeft (numbers : 2 ≤ f.exponentBits) (rank places : ℕ) :
    let other := f.nearestRank (f.units rank <<< places) 1
    other < f.infinityRank ∧ f.units other = f.units rank * 2 ^ places ∨
      other = f.infinityRank ∧
        f.binade * 2 ^ (2 ^ f.exponentBits - 2) ≤ f.units rank * 2 ^ places := by
  intro other
  obtain ⟨count, wide, steps, rfl⟩ := f.exists_steps rank
  obtain ⟨more, smaller, others, -, same⟩ := Steps.exists_smaller steps.fits (wide + places)
  have magnitude : f.units (count + wide * f.binade) * 2 ^ places = more * 2 ^ smaller := by
    rw [steps.units_eq, same, Nat.pow_add, Nat.mul_assoc]
  have nearest : other = min (more + smaller * f.binade) f.infinityRank := by
    rw [← others.nearestRank_eq Nat.one_pos, ← magnitude, Nat.mul_one, ← Nat.shiftLeft_eq]
  rw [magnitude]
  by_cases small : more + smaller * f.binade < f.infinityRank
  · rw [Nat.min_eq_left small.le] at nearest
    exact .inl (nearest ▸ ⟨small, others.units_eq⟩)
  · rw [Nat.min_eq_right (by omega)] at nearest
    refine .inr ⟨nearest, ?_⟩
    have exponents : 4 ≤ 2 ^ f.exponentBits := Nat.pow_le_pow_right (n := 2) (by decide) numbers
    have fits := others.fits
    -- As many binades as there are exponents are only reached with steps as wide.
    have above : (2 ^ f.exponentBits - 1) * f.binade < (smaller + 2) * f.binade := by
      rw [infinityRank, Nat.one_shiftLeft] at small
      rw [Nat.add_mul]
      omega
    have wide := Nat.lt_of_mul_lt_mul_right above
    rcases others.leading with rfl | leading
    · omega
    · exact Nat.mul_le_mul leading (Nat.pow_le_pow_right (by decide) (by omega))

/-- The magnitude beyond all numbers is a power of two. -/
theorem beyond_eq (numbers : 2 ≤ f.exponentBits) :
    f.binade * 2 ^ (2 ^ f.exponentBits - 2) = 2 ^ 2 ^ (f.exponentBits - 1) * f.one := by
  have two : 2 ^ 1 ≤ 2 ^ (f.exponentBits - 1) := Nat.pow_le_pow_right (by decide) (by omega)
  have twice : 2 ^ f.exponentBits = 2 * 2 ^ (f.exponentBits - 1) :=
    (mul_pow_sub_one (by omega) 2).symm
  rw [binade, one, unitPlaces, Nat.one_shiftLeft, Nat.one_shiftLeft, Nat.one_shiftLeft,
    ← Nat.pow_add, ← Nat.pow_add]
  congr 1
  omega

end Format

namespace Binary

variable {f : Format} {x : Binary f} {u : ℤ} {v : ℚ}

/-! ## Values -/

/-- **The fraction that a finite number stands for.** -/
def value? (x : Binary f) : Option ℚ := x.units?.map fun u : ℤ => (u : ℚ) / f.one

/-- A finite number stands for its units. -/
theorem value?_eq_some_iff : x.value? = some v ↔ ∃ u, x.units? = some u ∧ (u : ℚ) / f.one = v := by
  rw [value?, Option.map_eq_some_iff]

/-- **The integer nearest to a number** is the one nearest to its value. -/
theorem nearestInt?_eq (found : x.value? = some v) : x.nearestInt? = some (nearestAway v) := by
  obtain ⟨u, units, rfl⟩ := value?_eq_some_iff.1 found
  rw [nearestInt?, units, nearestAway_div u f.one_pos]
  rfl

/-- A finite number has a sign and a rank below infinity. -/
theorem exists_rank_of_units (units : x.units? = some u) :
    ∃ (negative : Bool) (rank : Fin (f.infinityRank + 1)), x = number negative rank ∧
      rank.val ≠ f.infinityRank ∧ u.natAbs = f.units rank ∧
        u = if negative then -(f.units rank : ℤ) else f.units rank := by
  cases x with
  | nan => contradiction
  | number negative rank =>
    rw [units?] at units
    split at units
    next => contradiction
    next finite =>
      obtain rfl := Option.some.inj units
      refine ⟨negative, rank, rfl, finite, ?_, rfl⟩
      cases negative <;> simp

theorem units?_number (negative : Bool) {rank : Fin (f.infinityRank + 1)}
    (finite : rank.val ≠ f.infinityRank) : (number negative rank).units? =
      some (if negative then -(f.units rank : ℤ) else f.units rank) := by
  rw [units?, if_neg finite]

/-- The value with the other sign. -/
theorem value?_neg (found : x.value? = some v) : x.neg.value? = some (-v) := by
  obtain ⟨u, units, rfl⟩ := value?_eq_some_iff.1 found
  obtain ⟨negative, rank, rfl, finite, -, rfl⟩ := exists_rank_of_units units
  refine value?_eq_some_iff.2 ⟨_, units?_number (!negative) finite, ?_⟩
  cases negative <;> simp [neg_div]

/-! ## Products with powers of two -/

/-- No integer is nearest to infinity, which is a number with a sign. -/
@[simp] theorem nearestInt?_infinite (negative : Bool) :
    (infinite f negative).nearestInt? = none := by
  simp [infinite, ofRank, nearestInt?, units?]

@[simp] theorem isNaN_infinite (negative : Bool) : (infinite f negative).isNaN = false := rfl

@[simp] theorem isNegative_infinite (negative : Bool) :
    (infinite f negative).isNegative = negative := rfl

/-- **A product with a power of two is exact,** or infinite where it is beyond all numbers. -/
theorem scaleUp_cases (numbers : 2 ≤ f.exponentBits) (found : x.value? = some v) (places : ℕ) :
    (x.scaleUp places).value? = some (v * 2 ^ places) ∨
      x.scaleUp places = infinite f (v < 0) ∧ 2 ^ 2 ^ (f.exponentBits - 1) ≤ |v * 2 ^ places| := by
  obtain ⟨u, units, rfl⟩ := value?_eq_some_iff.1 found
  obtain ⟨negative, rank, rfl, finite, magnitude, signed⟩ := exists_rank_of_units units
  have positive : (0 : ℚ) < f.one := by exact_mod_cast f.one_pos
  rw [scaleUp, if_neg finite, round]
  rcases Format.nearestRank_shiftLeft numbers rank places with ⟨small, scaled⟩ | ⟨all, beyond⟩
  · left
    refine value?_eq_some_iff.2 ⟨u * 2 ^ places, ?_, ?_⟩
    · rw [ofRank, units?_number]
      · simp only [Nat.min_eq_left small.le, scaled, signed]
        cases negative <;> simp
      · simpa only [Nat.min_eq_left small.le] using small.ne
    · rw [Int.cast_mul, Int.cast_pow, Int.cast_ofNat, mul_div_right_comm]
  · right
    -- What is beyond all numbers is not zero, so the sign of the value is that of the number.
    have nonzero : 0 < f.units rank := by
      have := Nat.mul_pos f.binade_pos (Nat.two_pow_pos (2 ^ f.exponentBits - 2))
      exact Nat.pos_of_mul_pos_right (this.trans_le beyond)
    have sign : decide ((u : ℚ) / f.one < 0) = negative := by
      simp only [div_lt_iff₀ positive, zero_mul, Int.cast_lt_zero]
      cases negative <;> simp at signed ⊢ <;> omega
    rw [all, sign]
    refine ⟨rfl, ?_⟩
    rw [f.beyond_eq numbers, ← magnitude] at beyond
    rw [abs_mul, abs_div, abs_of_pos positive, div_mul_eq_mul_div, le_div_iff₀ positive,
      ← Int.cast_abs, Int.abs_eq_natAbs, abs_of_pos (by positivity)]
    exact_mod_cast beyond

/-! ## Large numbers -/

/-- A number of many units is a multiple of a large power of two. -/
theorem dvd_of_units (units : x.units? = some u) {width : ℕ}
    (large : f.binade * 2 ^ width ≤ u.natAbs) : 2 ^ width ∣ u := by
  obtain ⟨-, rank, -, -, magnitude, -⟩ := exists_rank_of_units units
  have multiple : 2 ^ width ∣ u.natAbs := by
    rw [magnitude] at large ⊢
    exact Format.dvd_units large
  exact_mod_cast Int.natCast_dvd.2 multiple

/-- **Large numbers are multiples of large powers of two,** by as many places as they have more than the
format. -/
theorem exists_multiple (found : x.value? = some v) (places : ℕ)
    (large : 2 ^ (f.fractionBits + places) ≤ |v|) : ∃ k : ℤ, v = k * 2 ^ places := by
  obtain ⟨u, units, rfl⟩ := value?_eq_some_iff.1 found
  have one : f.one = 2 ^ f.unitPlaces := by rw [Format.one, Nat.one_shiftLeft]
  have positive : (0 : ℚ) < f.one := by exact_mod_cast f.one_pos
  have magnitude : f.binade * 2 ^ (places + f.unitPlaces) ≤ u.natAbs := by
    rw [abs_div, abs_of_pos positive, le_div_iff₀ positive] at large
    rw [Format.binade, Nat.one_shiftLeft, Nat.pow_add, ← one, ← Nat.mul_assoc, ← Nat.pow_add]
    rw [← Int.cast_abs, Int.abs_eq_natAbs] at large
    exact_mod_cast large
  obtain ⟨k, rfl⟩ := dvd_of_units units magnitude
  refine ⟨k, ?_⟩
  rw [one]
  push_cast
  rw [pow_add]
  field_simp

end Binary

end SoundControl.Number
