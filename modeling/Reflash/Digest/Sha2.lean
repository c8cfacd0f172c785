import Reflash.Digest.Blocks

set_option autoImplicit false

/-! # The SHA-2 digests

One scheme on words of 32 or 64 bits. Its constants are the fractions of the cube roots of the
first primes, and the initial states those of square roots. -/

namespace Reflash.Digest

/-- The scheme on words of one size: the cut, the arithmetic, and the distances of the two mixing
functions of the state and of the two of the schedule, which end in a shift. -/
structure Sha2 (W : Type) where
  cut : Cut
  ofNat : Nat → W
  toNat : W → Nat
  rotate : W → Nat → W
  shift : W → Nat → W
  state0 : Nat × Nat × Nat
  state1 : Nat × Nat × Nat
  schedule0 : Nat × Nat × Nat
  schedule1 : Nat × Nat × Nat
  constants : Array W

/-- The eight words of the state. -/
structure Sha2State (W : Type) where
  a : W
  b : W
  c : W
  d : W
  e : W
  f : W
  g : W
  h : W

namespace Sha2

variable {W : Type} [Add W] [HXor W W W] [HAnd W W W] [Complement W] [Inhabited W]

/-- The mix of three rotations of a word. -/
def mix (s : Sha2 W) (by_ : Nat × Nat × Nat) (x : W) : W :=
  s.rotate x by_.1 ^^^ s.rotate x by_.2.1 ^^^ s.rotate x by_.2.2

/-- The mix of two rotations and a shift of a word. -/
def mixShift (s : Sha2 W) (by_ : Nat × Nat × Nat) (x : W) : W :=
  s.rotate x by_.1 ^^^ s.rotate x by_.2.1 ^^^ s.shift x by_.2.2

/-- The word at a place of a schedule. -/
def word (ws : Array W) (i : Nat) : W := ws.getD i default

/-- The schedule of a block: its words and those that follow from them, one for each round. -/
def schedule (s : Sha2 W) (block : Array Nat) : Array W :=
  (List.range (s.constants.size - block.size)).foldl (fun ws i =>
    ws.push (word ws i + s.mixShift s.schedule0 (word ws (i + 1)) + word ws (i + 9) +
      s.mixShift s.schedule1 (word ws (i + 14)))) (block.map s.ofNat)

/-- One round, with a word of the schedule and a constant already added up. -/
def round (s : Sha2 W) (t : Sha2State W) (added : W) : Sha2State W :=
  let choice := (t.e &&& t.f) ^^^ (~~~t.e &&& t.g)
  let majority := (t.a &&& t.b) ^^^ (t.a &&& t.c) ^^^ (t.b &&& t.c)
  let x := t.h + s.mix s.state1 t.e + choice + added
  let y := s.mix s.state0 t.a + majority
  { a := x + y, b := t.a, c := t.b, d := t.c, e := t.d + x, f := t.e, g := t.f, h := t.g }

/-- The state after a block. -/
def compress (s : Sha2 W) (t : Sha2State W) (block : Array Nat) : Sha2State W :=
  let ws := s.schedule block
  let u := (List.range s.constants.size).foldl
    (fun u i => s.round u (word ws i + word s.constants i)) t
  { a := t.a + u.a, b := t.b + u.b, c := t.c + u.c, d := t.d + u.d,
    e := t.e + u.e, f := t.f + u.f, g := t.g + u.g, h := t.h + u.h }

/-- The initial state of eight given words. -/
def start (s : Sha2 W) (words : List Nat) : Sha2State W :=
  let w (i : Nat) : W := s.ofNat (words.getD i 0)
  { a := w 0, b := w 1, c := w 2, d := w 3, e := w 4, f := w 5, g := w 6, h := w 7 }

/-- The digest of a message: the first `size` bytes of the last state. -/
def digest (s : Sha2 W) (initial : List Nat) (size : Nat) (message : ByteArray) : List UInt8 :=
  let t := s.cut.fold s.compress (s.start initial) message
  ([t.a, t.b, t.c, t.d, t.e, t.f, t.g, t.h].flatMap fun w =>
    s.cut.bytes s.cut.word (s.toNat w)).take size

end Sha2

/-- The scheme on 32-bit words. -/
def sha2On32 : Sha2 UInt32 where
  cut := ⟨64, 4, 8, true⟩
  ofNat := UInt32.ofNat
  toNat := UInt32.toNat
  rotate x n := x >>> UInt32.ofNat n ||| x <<< UInt32.ofNat (32 - n)
  shift x n := x >>> UInt32.ofNat n
  state0 := (2, 13, 22)
  state1 := (6, 11, 25)
  schedule0 := (7, 18, 3)
  schedule1 := (17, 19, 10)
  constants := ((primes.take 64).map fun p => UInt32.ofNat (rootFraction 3 32 p)).toArray

/-- The scheme on 64-bit words. -/
def sha2On64 : Sha2 UInt64 where
  cut := ⟨128, 8, 16, true⟩
  ofNat := UInt64.ofNat
  toNat := UInt64.toNat
  rotate x n := x >>> UInt64.ofNat n ||| x <<< UInt64.ofNat (64 - n)
  shift x n := x >>> UInt64.ofNat n
  state0 := (28, 34, 39)
  state1 := (14, 18, 41)
  schedule0 := (1, 8, 7)
  schedule1 := (19, 61, 6)
  constants := (primes.map fun p => UInt64.ofNat (rootFraction 3 64 p)).toArray

/-- The fractions of the square roots of the first eight primes. -/
def firstRoots : List Nat := (primes.take 8).map (rootFraction 2 64)

/-- The fractions of the square roots of the next eight primes. -/
def nextRoots : List Nat := ((primes.drop 8).take 8).map (rootFraction 2 64)

/-- SHA-224. -/
def sha224 : ByteArray → List UInt8 := sha2On32.digest (nextRoots.map (· % Nat.pow 2 32)) 28

/-- SHA-256. -/
def sha256 : ByteArray → List UInt8 := sha2On32.digest (firstRoots.map (· / Nat.pow 2 32)) 32

/-- SHA-384. -/
def sha384 : ByteArray → List UInt8 := sha2On64.digest nextRoots 48

/-- SHA-512. -/
def sha512 : ByteArray → List UInt8 := sha2On64.digest firstRoots 64

end Reflash.Digest
