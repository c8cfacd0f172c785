import Reflash.Digest.Sha2

set_option autoImplicit false

/-! # The BLAKE2 digests

One scheme on words of 32 or 64 bits. Its initial states are those of SHA-2. -/

namespace Reflash.Digest

/-- The scheme on words of one size: bytes per word, rounds, and the distances by which words are
turned. -/
structure Blake2 (W : Type) where
  word : Nat
  rounds : Nat
  ofNat : Nat → W
  toNat : W → Nat
  rotate : W → Nat → W
  turns : Nat × Nat × Nat × Nat
  initial : Array W

/-- The orders in which the words of a block are taken, for ten rounds. -/
def blake2Orders : Array (Array Nat) := #[
  #[0, 1, 2, 3, 4, 5, 6, 7, 8, 9, 10, 11, 12, 13, 14, 15],
  #[14, 10, 4, 8, 9, 15, 13, 6, 1, 12, 0, 2, 11, 7, 5, 3],
  #[11, 8, 12, 0, 5, 2, 15, 13, 10, 14, 3, 6, 7, 1, 9, 4],
  #[7, 9, 3, 1, 13, 12, 11, 14, 2, 6, 5, 10, 4, 0, 15, 8],
  #[9, 0, 5, 7, 2, 4, 10, 15, 14, 1, 11, 12, 6, 8, 3, 13],
  #[2, 12, 6, 10, 0, 11, 8, 3, 4, 13, 7, 5, 15, 14, 1, 9],
  #[12, 5, 1, 15, 14, 13, 4, 10, 0, 7, 6, 3, 9, 2, 8, 11],
  #[13, 11, 7, 14, 12, 1, 3, 9, 5, 0, 15, 4, 8, 6, 2, 10],
  #[6, 15, 14, 9, 11, 3, 0, 8, 12, 2, 13, 7, 1, 4, 10, 5],
  #[10, 2, 8, 4, 7, 6, 1, 5, 15, 11, 9, 14, 3, 12, 13, 0]]

/-- The four words that are mixed at a time: the columns of the state, then its diagonals. -/
def blake2Places : List (Nat × Nat × Nat × Nat) :=
  [(0, 4, 8, 12), (1, 5, 9, 13), (2, 6, 10, 14), (3, 7, 11, 15),
    (0, 5, 10, 15), (1, 6, 11, 12), (2, 7, 8, 13), (3, 4, 9, 14)]

namespace Blake2

variable {W : Type} [Add W] [HXor W W W] [Complement W] [Inhabited W]

/-- Mixes four words of a state with two words of a block. -/
def mix (s : Blake2 W) (v : Array W) (places : Nat × Nat × Nat × Nat) (x y : W) : Array W :=
  let (a, b, c, d) := places
  let half (v : Array W) (added : W) (turnD turnB : Nat) : Array W :=
    let wa := v.getD a default + v.getD b default + added
    let wd := s.rotate (v.getD d default ^^^ wa) turnD
    let wc := v.getD c default + wd
    let wb := s.rotate (v.getD b default ^^^ wc) turnB
    (((v.setIfInBounds a wa).setIfInBounds d wd).setIfInBounds c wc).setIfInBounds b wb
  half (half v x s.turns.1 s.turns.2.1) y s.turns.2.2.1 s.turns.2.2.2

/-- One round. -/
def round (s : Blake2 W) (block : Array W) (v : Array W) (i : Nat) : Array W :=
  let order := blake2Orders.getD (i % 10) #[]
  (blake2Places.zipIdx).foldl (fun v (places, k) =>
    s.mix v places (block.getD (order.getD (2 * k) 0) default)
      (block.getD (order.getD (2 * k + 1) 0) default)) v

/-- The state after a block, where `seen` bytes of the message have been read by its end. -/
def compress (s : Blake2 W) (h : Array W) (block : Array W) (seen : Nat) (last : Bool) : Array W :=
  let span := Nat.pow 256 s.word
  let v := h ++ s.initial
  let v := v.modify 12 (· ^^^ s.ofNat (seen % span))
  let v := v.modify 13 (· ^^^ s.ofNat (seen / span))
  let v := if last then v.modify 14 (~~~ ·) else v
  let v := (List.range s.rounds).foldl (s.round block) v
  h.mapIdx fun i x => x ^^^ v.getD i default ^^^ v.getD (i + 8) default

/-- The digest of a message, of as many bytes as the state has. -/
def digest (s : Blake2 W) (message : ByteArray) : List UInt8 :=
  let size := 16 * s.word
  let count := max 1 ((message.size + size - 1) / size)
  let filled := message ++ ByteArray.mk (Array.replicate (count * size - message.size) 0)
  let start := s.initial.modify 0 (· ^^^ s.ofNat (0x01010000 + 8 * s.word))
  let words (i : Nat) : Array W := (Array.range 16).map fun k =>
    let at_ := i * size + k * s.word
    s.ofNat ((filled.extract at_ (at_ + s.word)).toList.reverse.foldl
      (fun n b => 256 * n + b.toNat) 0)
  let last := (List.range count).foldl (fun h i =>
    s.compress h (words i) (min ((i + 1) * size) message.size) (i + 1 == count)) start
  last.toList.flatMap fun w => lowBytes s.word (s.toNat w)

end Blake2

/-- BLAKE2b. -/
def blake2b : ByteArray → List UInt8 :=
  Blake2.digest {
    word := 8
    rounds := 12
    ofNat := UInt64.ofNat
    toNat := UInt64.toNat
    rotate := sha2On64.rotate
    turns := (32, 24, 16, 63)
    initial := (firstRoots.map UInt64.ofNat).toArray }

/-- BLAKE2s. -/
def blake2s : ByteArray → List UInt8 :=
  Blake2.digest {
    word := 4
    rounds := 10
    ofNat := UInt32.ofNat
    toNat := UInt32.toNat
    rotate := sha2On32.rotate
    turns := (16, 12, 8, 7)
    initial := (firstRoots.map fun r => UInt32.ofNat (r / Nat.pow 2 32)).toArray }

end Reflash.Digest
