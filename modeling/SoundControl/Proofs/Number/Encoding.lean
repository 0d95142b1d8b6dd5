import SoundControl.Number.Binary

/-! # Numbers survive their encoding

A sign bit stands above the rank, and the ranks from infinity up to the sign bit are free for NaN.

* **`Binary.ofBits_toBits`** — a number is read back from its encoding.
* **`Binary.toBits_lt`** — the encoding is no longer than sign, exponent and fraction. -/

namespace SoundControl.Number

variable {f : Format}

/-- The ranks up to the sign bit: those of numbers, and a binade above infinity. -/
theorem Format.infinityRank_add_binade (f : Format) :
    f.infinityRank + f.binade = 1 <<< Binary.signPlace f := by
  have : 0 < 2 ^ f.exponentBits := Nat.two_pow_pos _
  rw [infinityRank, binade, Binary.signPlace, Nat.one_shiftLeft, Nat.one_shiftLeft,
    Nat.one_shiftLeft, Nat.pow_add, ← Nat.succ_mul, Nat.succ_eq_add_one, Nat.sub_add_cancel this]

/-- Some fraction bits make room for a NaN. -/
theorem Format.two_le_binade (positive : 0 < f.fractionBits) : 2 ≤ f.binade := by
  rw [binade, Nat.one_shiftLeft]
  exact Nat.le_self_pow (by omega) 2

namespace Binary

/-- **The encoding is no longer** than sign, exponent and fraction. -/
theorem toBits_lt (positive : 0 < f.fractionBits) (x : Binary f) :
    x.toBits < 2 * 1 <<< signPlace f := by
  have places := f.infinityRank_add_binade
  have room := Format.two_le_binade positive
  cases x with
  | nan =>
    rw [toBits, quietNaN]
    omega
  | number negative rank =>
    have := rank.isLt
    rw [toBits]
    split <;> omega

/-- **A number is read back from its encoding.** -/
theorem ofBits_toBits (positive : 0 < f.fractionBits) (x : Binary f) : ofBits f x.toBits = x := by
  have places := f.infinityRank_add_binade
  have room := Format.two_le_binade positive
  cases x with
  | nan =>
    rw [toBits, ofBits, dif_neg]
    rw [quietNaN, Nat.mod_eq_of_lt (by omega)]
    omega
  | number negative rank =>
    have below : rank.val < 1 <<< signPlace f := by
      have := rank.isLt
      omega
    have low : toBits (.number negative rank) % 1 <<< signPlace f = rank.val := by
      rw [toBits]
      split
      · rw [Nat.add_mod_left, Nat.mod_eq_of_lt below]
      · rw [Nat.zero_add, Nat.mod_eq_of_lt below]
    have high : (toBits (.number negative rank)).testBit (signPlace f) = negative := by
      rw [Nat.one_shiftLeft] at below
      rw [toBits, Nat.one_shiftLeft]
      cases negative
      · simpa using Nat.testBit_lt_two_pow below
      · simp [Nat.testBit_two_pow_add_eq, Nat.testBit_lt_two_pow below]
    rw [ofBits, dif_pos (by rw [low]; exact rank.isLt)]
    simp only [low, high]

end Binary

end SoundControl.Number
