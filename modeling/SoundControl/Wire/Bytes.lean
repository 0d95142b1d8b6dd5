/-!
# Bytes of the wire format

Numbers travel with their most significant byte first, and everything is padded to a multiple of
four bytes.

* **`bigEndian`**, **`ofBigEndian`** — numbers as bytes and back.
* **`padding`** — the zero bytes up to the next multiple of four.
* **`gap`** — how many bytes separate a text or blob that ends at an offset from what follows it.
-/

namespace SoundControl.Wire

/-- The lowest `count` bytes of a number, the most significant first. -/
def bigEndian : Nat → Nat → List UInt8
  | 0, _ => []
  | count + 1, n => bigEndian count (n / 256) ++ [UInt8.ofNat (n % 256)]

/-- The number whose most significant byte comes first. -/
def ofBigEndian (bytes : List UInt8) : Nat := bytes.foldl (fun n b => n * 256 + b.toNat) 0

@[simp] theorem length_bigEndian (count n : Nat) : (bigEndian count n).length = count := by
  induction count generalizing n with
  | zero => rfl
  | succ count ih => simp [bigEndian, ih]

/-- The zero bytes that fill up `length` bytes to a multiple of four. -/
def padding (length : Nat) : List UInt8 := List.replicate ((4 - length % 4) % 4) 0

/-- Bytes between a text or blob that ends at `offset` and what follows: one to four. -/
def gap (offset : Nat) : Nat := 4 - offset % 4

end SoundControl.Wire
