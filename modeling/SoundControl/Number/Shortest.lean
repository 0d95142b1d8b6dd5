import SoundControl.Number.Binary

/-!
# Shortest decimals

A finite number is written with the fewest digits that still read back as the same number.  The
reals that round to a number form an interval around it, which holds its ends exactly if the rank
is even; the coarsest decimal grid with a point in the interval gives the digits.

* **`Decimal`** — digits and the power of ten of the last one.
* **`shortest`** — the shortest decimal of a magnitude; of two grid points the nearer, and of two
  equally near the greater.
* **`Binary.plainText`** — all digits in place, without an exponent.
* **`Binary.literalText`** — always with a fraction or an exponent.
-/

namespace SoundControl.Number

/-- A decimal number: `digits` times ten to the power `exponent`. -/
structure Decimal where
  /-- All significant digits as one number. -/
  digits : Nat
  /-- Power of ten of the last digit. -/
  exponent : Int
  deriving DecidableEq, Repr

/-- The fraction `n / d` in steps of ten to the power `exponent`, as a fraction again. -/
def inSteps (n d : Nat) (exponent : Int) : Nat × Nat :=
  let power := Nat.pow 10 exponent.natAbs
  if exponent < 0 then (n * power, d) else (n, d * power)

/-- **The point of a decimal grid that reads back.** The magnitude is `middle`, and the reals that
round to it lie between `low` and `high`, all in parts of `d`. -/
def gridPoint? (closed : Bool) (low middle high d : Nat) (exponent : Int) : Option Nat :=
  let (l, p) := inSteps low d exponent
  let (m, _) := inSteps middle d exponent
  let (h, _) := inSteps high d exponent
  let floor := m / p
  let inside (point : Nat) : Bool :=
    if closed then l ≤ point * p && point * p ≤ h else l < point * p && point * p < h
  let above := 2 * (m % p)
  match inside floor, inside (floor + 1) with
  | true, true => some (if above < p then floor else floor + 1)
  | true, false => some floor
  | false, true => some (floor + 1)
  | false, false => none

/-- Search ever finer grids for a point that reads back. -/
def searchGrids (closed : Bool) (low middle high d : Nat) : Nat → Int → Decimal
  | 0, exponent => ⟨(inSteps middle d exponent).1 / (inSteps middle d exponent).2, exponent⟩
  | fuel + 1, exponent =>
    match gridPoint? closed low middle high d exponent with
    | some digits => ⟨digits, exponent⟩
    | none => searchGrids closed low middle high d fuel (exponent - 1)

/-- A power of ten above a fraction and at most two steps too high. -/
def exponentAbove (n d : Nat) : Int :=
  Int.fdiv (((n.log2 : Int) - d.log2 + 1) * 30103) 100000 + 1

/-- **The shortest decimal of a finite positive magnitude.** Twenty-five grids are more than the
seventeen digits that any double needs. -/
def shortest (f : Format) (rank : Nat) : Decimal :=
  let middle := f.units rank
  let low := f.units (rank - 1) + middle
  let high := middle + f.units (rank + 1)
  searchGrids (rank % 2 == 0) low (2 * middle) high (2 * f.one) 25
    (exponentAbove middle f.one)

/-- The digits without the zeros at their end, as text. -/
def Decimal.digitText (x : Decimal) : List Char :=
  ((Nat.toDigits 10 x.digits).reverse.dropWhile (· = '0')).reverse

/-- Power of ten of the first digit. -/
def Decimal.leading (x : Decimal) : Int := x.exponent + (Nat.toDigits 10 x.digits).length - 1

/-- All digits of a decimal in place; `fraction` says what stands behind a whole number. -/
def Decimal.positional (fraction : List Char) (x : Decimal) : List Char :=
  let digits := x.digitText
  if x.leading < 0 then
    ['0', '.'] ++ List.replicate (x.leading.natAbs - 1) '0' ++ digits
  else
    let whole := x.leading.natAbs + 1
    if digits.length ≤ whole then
      digits ++ List.replicate (whole - digits.length) '0' ++ fraction
    else digits.take whole ++ ['.'] ++ digits.drop whole

/-- One digit, the others behind a point, and the exponent. -/
def Decimal.scientific (x : Decimal) : List Char :=
  let fraction := match x.digitText with
    | [] => []
    | [d] => [d]
    | d :: ds => d :: '.' :: ds
  fraction ++ ['e'] ++ (toString x.leading).toList

namespace Binary

variable {f : Format}

/-- The text of a number, given that of a positive magnitude and that of zero. -/
def text (zero : List Char) (magnitude : Decimal → List Char) : Binary f → String
  | .nan => "NaN"
  | .number negative rank =>
    let sign := if negative then ['-'] else []
    let body :=
      if rank.val = f.infinityRank then ['i', 'n', 'f']
      else if rank.val = 0 then zero
      else magnitude (shortest f rank.val)
    String.ofList (sign ++ body)

/-- **All digits in place,** whole numbers without a point. -/
def plainText : Binary f → String := text ['0'] (Decimal.positional [])

/-- **Always with a fraction or an exponent:** positional from 0.0001 to below 10 to the 16th. -/
def literalText : Binary f → String :=
  text ['0', '.', '0'] fun x =>
    if x.leading < -4 || 16 ≤ x.leading then x.scientific else x.positional ['.', '0']

end Binary

end SoundControl.Number
