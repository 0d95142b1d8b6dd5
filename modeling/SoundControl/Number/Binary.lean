/-!
# Binary floating point

The binary interchange formats, value by value.  A number is a sign and the **rank** of its
magnitude: 0 for zero, 1 for the least positive number, and so on up to infinity.  Every finite
magnitude is a whole number of **units**, the least positive number, so that values are compared
and added exactly as integers and every operation rounds once.  All NaNs are one.

* **`Format`** — how many bits hold the fraction and the exponent.
* **`Binary`** — the numbers of a format; **`Binary32`**, **`Binary64`** — the two in use.
* **`Binary.round`** — the number nearest to a fraction of units, ties to even.
* **`Binary.ofBits`**, **`Binary.toBits`** — the interchange encoding.
* **`Binary.ofInt`**, **`convert`**, **`add`**, **`neg`**, **`scaleUp`**, **`scaleDown`**,
  **`nearestInt?`** — the arithmetic that time tags and arguments need.
-/

namespace SoundControl.Number

/-- Widths of the fields of a binary format. -/
structure Format where
  /-- Bits of the fraction field. -/
  fractionBits : Nat
  /-- Bits of the exponent field. -/
  exponentBits : Nat
  deriving DecidableEq, Repr

namespace Format

/-- How many ranks there are from one power of two to the next. -/
def binade (f : Format) : Nat := 1 <<< f.fractionBits

/-- The rank of infinity: all exponent bits set. -/
def infinityRank (f : Format) : Nat := (1 <<< f.exponentBits - 1) * f.binade

/-- The unit is 2 to minus this power. -/
def unitPlaces (f : Format) : Nat := 1 <<< (f.exponentBits - 1) - 2 + f.fractionBits

/-- How many units make 1. -/
def one (f : Format) : Nat := 1 <<< f.unitPlaces

/-- **The magnitude of a rank, in units.** Ranks of the first binade count units, and so do those of
the second; from there on the step doubles from binade to binade. -/
def units (f : Format) (rank : Nat) : Nat :=
  if rank < f.binade then rank
  else (f.binade + rank % f.binade) <<< (rank / f.binade - 1)

end Format

/-- The quotient rounded to nearest, ties to even. -/
def divideToEven (n d : Nat) : Nat :=
  let q := n / d
  let twice := 2 * (n % d)
  if twice < d then q else if d < twice then q + 1 else q + q % 2

/-- **The rank nearest to `n / d` units,** ties to the even rank, and infinity beyond the greatest
finite magnitude. -/
def Format.nearestRank (f : Format) (n d : Nat) : Nat :=
  let shift := (n / d).log2 - f.fractionBits
  min (divideToEven n (d <<< shift) + shift * f.binade) f.infinityRank

/-- **The numbers of a binary format.** -/
inductive Binary (f : Format) where
  /-- Not a number. -/
  | nan
  /-- A sign and the rank of a magnitude, up to infinity. -/
  | number (negative : Bool) (rank : Fin (f.infinityRank + 1))
  deriving DecidableEq, Repr

/-- Single precision. -/
abbrev Binary32 := Binary ⟨23, 8⟩

/-- Double precision. -/
abbrev Binary64 := Binary ⟨52, 11⟩

namespace Binary

variable {f g : Format}

instance : Inhabited (Binary f) := ⟨.nan⟩

/-- The number of a sign and a rank; ranks beyond infinity are infinity. -/
def ofRank (f : Format) (negative : Bool) (rank : Nat) : Binary f :=
  .number negative ⟨min rank f.infinityRank, Nat.lt_succ_of_le (Nat.min_le_right _ _)⟩

/-- **The number nearest to `n / d` units,** with the given sign. -/
def round (f : Format) (negative : Bool) (n d : Nat) : Binary f :=
  ofRank f negative (f.nearestRank n d)

/-- Infinity of a sign. -/
def infinite (f : Format) (negative : Bool) : Binary f := ofRank f negative f.infinityRank

/-- Positive infinity. -/
def infinity : Binary f := infinite f false

/-- Zero. -/
def zero : Binary f := ofRank f false 0

/-- Not a number. -/
def isNaN : Binary f → Bool
  | .nan => true
  | .number _ _ => false

/-- Either infinity. -/
def isInfinite : Binary f → Bool
  | .nan => false
  | .number _ rank => rank.val == f.infinityRank

/-- Either zero. -/
def isZero : Binary f → Bool
  | .nan => false
  | .number _ rank => rank.val == 0

/-- Positive infinity. -/
def isInfinity (x : Binary f) : Bool := x = infinity

/-- **The value of a finite number, in units.** -/
def units? : Binary f → Option Int
  | .nan => none
  | .number negative rank =>
    if rank.val = f.infinityRank then none
    else
      let magnitude : Int := f.units rank.val
      some (if negative then -magnitude else magnitude)

/-- The sign, which zeros have too; NaN counts as positive. -/
def isNegative : Binary f → Bool
  | .nan => false
  | .number negative _ => negative

/-- **Equality of values:** NaN differs from itself, and the two zeros are equal. -/
def sameValue : Binary f → Binary f → Bool
  | .number s a, .number t b => a == b && (s == t || a.val == 0)
  | _, _ => false

/-! ## Encoding -/

/-- The quiet NaN. -/
def quietNaN (f : Format) : Nat := f.infinityRank + f.binade / 2

/-- The place of the sign bit. -/
def signPlace (f : Format) : Nat := f.exponentBits + f.fractionBits

/-- The interchange encoding: sign, exponent and fraction; NaN is the quiet one. -/
def toBits : Binary f → Nat
  | .nan => quietNaN f
  | .number negative rank =>
    (if negative then 1 <<< signPlace f else 0) + rank.val

/-- The number with the given encoding; higher bits are ignored. -/
def ofBits (f : Format) (bits : Nat) : Binary f :=
  let rank := bits % 1 <<< signPlace f
  if h : rank < f.infinityRank + 1 then
    .number (bits.testBit (signPlace f)) ⟨rank, h⟩
  else .nan

/-! ## Arithmetic -/

/-- The number nearest to an integer. -/
def ofInt (f : Format) (i : Int) : Binary f := round f (i < 0) (i.natAbs * f.one) 1

/-- The number of another format nearest to this one. -/
def convert (g : Format) : Binary f → Binary g
  | .nan => .nan
  | .number negative rank =>
    if rank.val = f.infinityRank then infinite g negative
    else round g negative (f.units rank.val * g.one) f.one

/-- The number with the other sign. -/
def neg : Binary f → Binary f
  | .nan => .nan
  | .number negative rank => .number (!negative) rank

/-- **The rounded sum.** A sum of zero is negative only if both summands are. -/
def add (x y : Binary f) : Binary f :=
  match x.units?, y.units? with
  | some a, some b =>
    if a + b = 0 then ofRank f (x.isNegative && y.isNegative) 0
    else round f (a + b < 0) (a + b).natAbs 1
  | some _, none => y
  | none, some _ => x
  | none, none => if x = y then x else .nan

/-- The rounded product with a power of two. -/
def scaleUp (places : Nat) : Binary f → Binary f
  | .nan => .nan
  | .number negative rank =>
    if rank.val = f.infinityRank then .number negative rank
    else round f negative (f.units rank.val <<< places) 1

/-- The rounded quotient by a power of two. -/
def scaleDown (places : Nat) : Binary f → Binary f
  | .nan => .nan
  | .number negative rank =>
    if rank.val = f.infinityRank then .number negative rank
    else round f negative (f.units rank.val) (1 <<< places)

/-- **The integer nearest to a finite number,** ties away from zero. -/
def nearestInt? (x : Binary f) : Option Int :=
  x.units?.map fun u =>
    let magnitude : Int := (2 * u.natAbs + f.one) / (2 * f.one)
    if u < 0 then -magnitude else magnitude

end Binary

end SoundControl.Number
