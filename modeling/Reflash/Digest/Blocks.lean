set_option autoImplicit false

/-! # Digests over blocks

The digests here work alike: the message is filled up to whole blocks, ending in its length, and a
state is changed by one block after the other. -/

namespace Reflash.Digest

/-- How a digest cuts its message: bytes per block and per word, bytes of the length at the end,
and whether the first byte of a word is its highest. -/
structure Cut where
  block : Nat
  word : Nat
  length : Nat
  highFirst : Bool

/-- The `width` bytes of a number, the lowest first. -/
def lowBytes : Nat → Nat → List UInt8
  | 0, _ => []
  | width + 1, n => UInt8.ofNat (n % 256) :: lowBytes width (n / 256)

/-- The `width` bytes of a number in the order of a cut. -/
def Cut.bytes (cut : Cut) (width n : Nat) : List UInt8 :=
  if cut.highFirst then (lowBytes width n).reverse else lowBytes width n

/-- The number that bytes denote in the order of a cut. -/
def Cut.number (cut : Cut) (bs : List UInt8) : Nat :=
  (if cut.highFirst then bs else bs.reverse).foldl (fun n b => 256 * n + b.toNat) 0

/-- The message filled up: a one bit, zero bits, and the length of the message in bits. -/
def Cut.fill (cut : Cut) (message : ByteArray) : ByteArray :=
  let used := message.size + 1 + cut.length
  let zeros := (cut.block - used % cut.block) % cut.block
  message ++ ByteArray.mk
    (0x80 :: List.replicate zeros 0 ++ cut.bytes cut.length (8 * message.size)).toArray

/-- The words of the block that begins at `start`. -/
def Cut.words (cut : Cut) (filled : ByteArray) (start : Nat) : Array Nat :=
  (Array.range (cut.block / cut.word)).map fun i =>
    cut.number (filled.extract (start + i * cut.word) (start + (i + 1) * cut.word)).toList

/-- The state after all blocks of a message. -/
def Cut.fold {α : Type} (cut : Cut) (compress : α → Array Nat → α) (initial : α)
    (message : ByteArray) : α :=
  let filled := cut.fill message
  (List.range (filled.size / cut.block)).foldl
    (fun state i => compress state (cut.words filled (i * cut.block))) initial

/-! ## Constants from roots -/

/-- The greatest number below `r + 2 ^ bits` whose `k`th power is at most `n`, if `r` is one. -/
def rootFrom (k n : Nat) : Nat → Nat → Nat
  | 0, r => r
  | bits + 1, r =>
    let next := r + Nat.pow 2 bits
    rootFrom k n bits (if Nat.pow next k ≤ n then next else r)

/-- The first `bits` bits behind the point of the `k`th root of `n`, which is below 1024. -/
def rootFraction (k bits n : Nat) : Nat :=
  rootFrom k (n * Nat.pow 2 (k * bits)) (bits + 5) 0 % Nat.pow 2 bits

/-- Whether only one and itself divide `n`. -/
def isPrime (n : Nat) : Bool :=
  2 ≤ n && (List.range n).all fun d => d < 2 || n % d != 0

/-- The first 80 prime numbers. -/
def primes : List Nat := (List.range 410).filter isPrime

end Reflash.Digest
