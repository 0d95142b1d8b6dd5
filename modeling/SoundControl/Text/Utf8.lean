/-!
# UTF-8

Texts as bytes.  Decoding names the first offset at which the bytes are no text, and how many bytes
there begin a sequence that cannot go on; that number is missing when the bytes end inside a
sequence that is valid so far.

* **`encodeUtf8`** — the bytes of a text.
* **`Utf8Fault`**, **`decodeUtf8`** — the text of bytes, or the first fault.
-/

namespace SoundControl.Text

/-- The character with a code point, unless it is a surrogate or too large. -/
def scalar? (code : Nat) : Option Char := if code.isValidChar then some (Char.ofNat code) else none

/-- The bytes of a text. -/
def encodeUtf8 (s : String) : List UInt8 := s.toList.flatMap String.utf8EncodeChar

/-- Where and how bytes stop being a text. -/
structure Utf8Fault where
  /-- How many bytes before the fault are valid text. -/
  validUpTo : Nat
  /-- How many bytes the faulty sequence has; none if it is cut off by the end. -/
  faultLength : Option Nat
  deriving DecidableEq, Repr

/-- The ranges in which the bytes behind a leading byte must lie; none if the byte leads
nothing.  The narrowed second ranges exclude overlong forms, surrogates and values that are too
large. -/
def continuationRanges (lead : UInt8) : Option (List (UInt8 × UInt8)) :=
  let tail : UInt8 × UInt8 := (0x80, 0xbf)
  if lead < 0x80 then some []
  else if lead < 0xc2 then none
  else if lead < 0xe0 then some [tail]
  else if lead = 0xe0 then some [(0xa0, 0xbf), tail]
  else if lead = 0xed then some [(0x80, 0x9f), tail]
  else if lead < 0xf0 then some [tail, tail]
  else if lead = 0xf0 then some [(0x90, 0xbf), tail, tail]
  else if lead < 0xf4 then some [tail, tail, tail]
  else if lead = 0xf4 then some [(0x80, 0x8f), tail, tail]
  else none

/-- Take the bytes behind a leading byte, adding their six bits each to `code`.  The fault is the
length of the faulty sequence, `taken` bytes of which are good. -/
def takeContinuation (taken code : Nat) :
    List (UInt8 × UInt8) → List UInt8 → Except (Option Nat) (Nat × List UInt8)
  | [], bytes => .ok (code, bytes)
  | _ :: _, [] => .error none
  | (low, high) :: ranges, b :: bytes =>
    if low ≤ b && b ≤ high then
      takeContinuation (taken + 1) (code * 64 + b.toNat % 64) ranges bytes
    else .error (some taken)

/-- The payload bits of a leading byte that announces `count` further bytes. -/
def leadBits (lead : UInt8) (count : Nat) : Nat :=
  if count = 0 then lead.toNat else lead.toNat % 1 <<< (6 - count)

theorem takeContinuation_length {taken code code' : Nat} {ranges : List (UInt8 × UInt8)}
    {bytes rest : List UInt8} (h : takeContinuation taken code ranges bytes = .ok (code', rest)) :
    rest.length ≤ bytes.length := by
  fun_induction takeContinuation taken code ranges bytes with
  | case1 => cases h; exact Nat.le_refl _
  | case2 => cases h
  | case3 _ _ _ _ _ _ _ _ ih => exact Nat.le_succ_of_le (ih h)
  | case4 => cases h

/-- Decode bytes that stand behind `position` valid ones. -/
def decodeFrom (position : Nat) : List UInt8 → Except Utf8Fault (List Char)
  | [] => .ok []
  | lead :: bytes =>
    match continuationRanges lead with
    | none => .error ⟨position, some 1⟩
    | some ranges =>
      match h : takeContinuation 1 (leadBits lead ranges.length) ranges bytes with
      | .error length => .error ⟨position, length⟩
      | .ok (code, rest) =>
        (decodeFrom (position + 1 + ranges.length) rest).map (Char.ofNat code :: ·)
termination_by bytes => bytes.length
decreasing_by exact Nat.lt_succ_of_le (takeContinuation_length h)

/-- **The text of bytes**, or where they stop being one. -/
def decodeUtf8 (bytes : List UInt8) : Except Utf8Fault String :=
  (decodeFrom 0 bytes).map String.ofList

end SoundControl.Text
