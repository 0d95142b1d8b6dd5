/-!
# Wide integers

The range of 128-bit signed integers, which bounds the integers read from texts and the offsets
between times.

* **`Wide.least`**, **`Wide.greatest`** — the ends of the range.
* **`Wide.holds`** — whether an integer lies in it.
* **`Wide.clamp`** — the nearest integer that does.
-/

namespace SoundControl.Number.Wide

/-- The least wide integer. -/
def least : Int := -0x80000000000000000000000000000000

/-- The greatest wide integer. -/
def greatest : Int := 0x7fffffffffffffffffffffffffffffff

/-- **Whether an integer is wide at most.** -/
def holds (i : Int) : Bool := least ≤ i && i ≤ greatest

/-- **The wide integer nearest to an integer.** -/
def clamp (i : Int) : Int := max least (min greatest i)

end SoundControl.Number.Wide
