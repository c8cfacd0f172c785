import Reflash.Digest.Blocks

set_option autoImplicit false

/-! # The SHA-3 digests

A sponge on 25 lanes of 64 bits: the bytes of the message are mixed into the first lanes, block by
block, and the digest is read off them. The lane in column `x` and row `y` stands at `x + 5 * y`. -/

namespace Reflash.Digest

/-- The lane at a place; places are counted round and round in either direction. -/
def lane (lanes : Array UInt64) (x y : Nat) : UInt64 :=
  lanes.getD (x % 5 + 5 * (y % 5)) 0

/-- The lanes that a function of column and row gives. -/
def lanesOf (f : Nat → Nat → UInt64) : Array UInt64 :=
  (Array.range 25).map fun i => f (i % 5) (i / 5)

/-- A lane turned to the left. -/
def turn (x : UInt64) (n : Nat) : UInt64 :=
  if n % 64 = 0 then x else x <<< UInt64.ofNat (n % 64) ||| x >>> UInt64.ofNat (64 - n % 64)

/-- The columns, rows and distances by which the lanes are turned: a walk through the 24 places
beside the origin. -/
def turns : List (Nat × Nat × Nat) :=
  ((List.range 24).foldl (fun (walk : List (Nat × Nat × Nat) × Nat × Nat) t =>
    let (found, x, y) := walk
    ((x, y, (t + 1) * (t + 2) / 2) :: found, y, (2 * x + 3 * y) % 5)) ([], 1, 0)).1

/-- By how much the lane at a place is turned. -/
def turnAt (x y : Nat) : Nat :=
  ((turns.find? fun t => t.1 == x && t.2.1 == y).map fun t => t.2.2).getD 0

/-- The next state of the register that the constants of the rounds are read off. -/
def nextRegister (r : Nat) : Nat :=
  if r < 128 then 2 * r else (2 * r - 256) ^^^ 0x71

/-- The constants of the rounds: seven bits of the register each, at the places one below a power
of two. -/
def roundConstants : List UInt64 :=
  ((List.range 24).foldl (fun (made : List UInt64 × Nat) _ =>
    let (constant, r) := (List.range 7).foldl (fun (acc : Nat × Nat) j =>
      (acc.1 + (acc.2 % 2) * Nat.pow 2 (Nat.pow 2 j - 1), nextRegister acc.2)) (0, made.2)
    (made.1 ++ [UInt64.ofNat constant], r)) ([], 1)).1

/-- One round of the permutation. -/
def sha3Round (lanes : Array UInt64) (constant : UInt64) : Array UInt64 :=
  let column (x : Nat) : UInt64 :=
    (List.range 5).foldl (fun acc y => acc ^^^ lane lanes x y) 0
  let mixed := lanesOf fun x y => lane lanes x y ^^^ column ((x + 4) % 5) ^^^ turn (column ((x + 1) % 5)) 1
  let moved := lanesOf fun x y => turn (lane mixed (x + 3 * y) x) (turnAt ((x + 3 * y) % 5) x)
  let bent := lanesOf fun x y => lane moved x y ^^^ (~~~lane moved (x + 1) y &&& lane moved (x + 2) y)
  bent.modify 0 (· ^^^ constant)

/-- The permutation of the lanes. -/
def permute (lanes : Array UInt64) : Array UInt64 :=
  roundConstants.foldl sha3Round lanes

/-- The bytes of a sponge with blocks of `rate` bytes: the message with its end marked, block by
block. -/
def absorb (rate : Nat) (message : ByteArray) : Array UInt64 :=
  let zeros := rate - 1 - message.size % rate
  let filled := message ++ ByteArray.mk ((0x06 :: List.replicate zeros (0 : UInt8)).toArray)
  let marked := filled.set! (filled.size - 1) (filled.get! (filled.size - 1) ||| 0x80)
  (List.range (marked.size / rate)).foldl (fun lanes i =>
    permute (lanes.mapIdx fun k x =>
      if 8 * k < rate then
        let start := i * rate + 8 * k
        x ^^^ UInt64.ofNat ((marked.extract start (start + 8)).toList.reverse.foldl
          (fun n b => 256 * n + b.toNat) 0)
      else x)) (Array.replicate 25 0)

/-- The SHA-3 digest of `size` bytes. -/
def sha3 (size : Nat) (message : ByteArray) : List UInt8 :=
  ((absorb (200 - 2 * size) message).toList.flatMap fun x => lowBytes 8 x.toNat).take size

end Reflash.Digest
