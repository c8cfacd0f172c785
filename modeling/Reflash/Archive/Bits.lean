set_option autoImplicit false

/-! # Numbers in runs of bytes

Archives hold numbers of whole bytes, and compressed data holds numbers of bits. Both begin with
their lowest part. Reading past the end gives nothing. -/

namespace Reflash.Archive

/-- The number that `width` bytes from `start` on denote, the lowest byte first. -/
def number? (data : ByteArray) (start : Nat) : Nat → Option Nat
  | 0 => some 0
  | width + 1 => do
    let low ← data[start]?
    let high ← number? data (start + 1) width
    return low.toNat + 256 * high

/-- The `size` bytes from `start` on, if there are so many. -/
def slice? (data : ByteArray) (start size : Nat) : Option ByteArray :=
  if start + size ≤ data.size then some (data.extract start (start + size)) else none

/-- The position from which on the bits of some data are still to be read. -/
structure Bits where
  data : ByteArray
  position : Nat := 0

namespace Bits

/-- The next bit. -/
def bit (r : Bits) : Option (Nat × Bits) := do
  let byte ← r.data[r.position / 8]?
  return (byte.toNat / Nat.pow 2 (r.position % 8) % 2, { r with position := r.position + 1 })

/-- The number that the next `width` bits denote, the lowest bit first. -/
def take (r : Bits) : Nat → Option (Nat × Bits)
  | 0 => some (0, r)
  | width + 1 => do
    let (low, r) ← r.bit
    let (high, r) ← r.take width
    return (low + 2 * high, r)

/-- The index of the next byte that has no bit read yet. -/
def nextByte (r : Bits) : Nat := (r.position + 7) / 8

end Bits

end Reflash.Archive
