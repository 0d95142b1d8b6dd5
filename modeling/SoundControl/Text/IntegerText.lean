import SoundControl.Number.Wide
import SoundControl.Text.Blank

/-!
# Integers as text

A wide integer is written as decimal digits with an optional sign.  Reading goes digit
by digit and the first problem decides: a character that is no digit, or a value that leaves the
range.

* **`IntegerFault`** — the two problems.
* **`readInteger`** — the integer of a text, blanks at either end cut off.
-/

namespace SoundControl.Text

open Number

/-- Why a text is no integer. -/
inductive IntegerFault where
  /-- Something other than digits behind an optional sign, or nothing at all. -/
  | malformed
  /-- The digits leave the range of wide integers. -/
  | outOfRange
  deriving DecidableEq, Repr

/-- The value of an ASCII digit. -/
def digitValue? (c : Char) : Option Nat :=
  if '0' ≤ c && c ≤ '9' then some (c.toNat - '0'.toNat) else none

/-- Read digits behind those with the value `total`, away from zero in the direction of the
sign. -/
def readDigits (negative : Bool) (total : Int) : List Char → Except IntegerFault Int
  | [] => .ok total
  | c :: cs =>
    match digitValue? c with
    | none => .error .malformed
    | some d =>
      let next := if negative then total * 10 - d else total * 10 + d
      if Wide.holds next then readDigits negative next cs else .error .outOfRange

/-- Read an optional sign and one or more digits. -/
def readSigned : List Char → Except IntegerFault Int
  | [] => .error .malformed
  | c :: cs =>
    if c = '-' || c = '+' then
      if cs.isEmpty then .error .malformed else readDigits (c = '-') 0 cs
    else readDigits false 0 (c :: cs)

/-- **The integer written in a text.** -/
def readInteger (s : String) : Except IntegerFault Int := readSigned (trim s.toList)

end SoundControl.Text
