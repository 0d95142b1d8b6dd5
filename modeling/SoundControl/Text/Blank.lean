/-!
# Blank characters

The characters with the Unicode property `White_Space`, and cutting them off the ends of a text.

* **`isBlank`** — membership.
* **`trim`** — a text without the blanks at either end.
-/

namespace SoundControl.Text

/-- Code points with the property `White_Space`, as ascending ranges. -/
def blankRanges : List (Nat × Nat) :=
  [(0x9, 0xd), (0x20, 0x20), (0x85, 0x85), (0xa0, 0xa0), (0x1680, 0x1680), (0x2000, 0x200a),
   (0x2028, 0x2029), (0x202f, 0x202f), (0x205f, 0x205f), (0x3000, 0x3000)]

/-- The character has the property `White_Space`. -/
def isBlank (c : Char) : Bool :=
  blankRanges.any fun (low, high) => low ≤ c.toNat && c.toNat ≤ high

/-- A text without its leading blanks. -/
def trimStart (cs : List Char) : List Char := cs.dropWhile isBlank

/-- **A text without the blanks at either end.** -/
def trim (cs : List Char) : List Char := (trimStart (trimStart cs).reverse).reverse

end SoundControl.Text
