import Reflash.Digest.Blocks

set_option autoImplicit false

/-! # MD5 and SHA-1

The two older digests, which catalogs still name. Both work on 32-bit words. -/

namespace Reflash.Digest

/-- A word rotated to the left. -/
def rotateLeft (x : UInt32) (n : Nat) : UInt32 :=
  x <<< UInt32.ofNat n ||| x >>> UInt32.ofNat (32 - n)

/-- The state of both digests; MD5 leaves the fifth word alone. -/
structure EarlyState where
  a : UInt32 := 0x67452301
  b : UInt32 := 0xefcdab89
  c : UInt32 := 0x98badcfe
  d : UInt32 := 0x10325476
  e : UInt32 := 0xc3d2e1f0

namespace EarlyState

/-- Word by word sum. -/
def add (s t : EarlyState) : EarlyState :=
  { a := s.a + t.a, b := s.b + t.b, c := s.c + t.c, d := s.d + t.d, e := s.e + t.e }

/-- The words of the state in order. -/
def words (s : EarlyState) : List UInt32 := [s.a, s.b, s.c, s.d, s.e]

end EarlyState

/-! ## MD5 -/

/-- The constants of the rounds: the first 32 bits behind the point of the sines of 1, 2, … 64,
without sign. -/
def sines : Array UInt32 := #[
  0xd76aa478, 0xe8c7b756, 0x242070db, 0xc1bdceee, 0xf57c0faf, 0x4787c62a,
  0xa8304613, 0xfd469501, 0x698098d8, 0x8b44f7af, 0xffff5bb1, 0x895cd7be,
  0x6b901122, 0xfd987193, 0xa679438e, 0x49b40821, 0xf61e2562, 0xc040b340,
  0x265e5a51, 0xe9b6c7aa, 0xd62f105d, 0x02441453, 0xd8a1e681, 0xe7d3fbc8,
  0x21e1cde6, 0xc33707d6, 0xf4d50d87, 0x455a14ed, 0xa9e3e905, 0xfcefa3f8,
  0x676f02d9, 0x8d2a4c8a, 0xfffa3942, 0x8771f681, 0x6d9d6122, 0xfde5380c,
  0xa4beea44, 0x4bdecfa9, 0xf6bb4b60, 0xbebfbc70, 0x289b7ec6, 0xeaa127fa,
  0xd4ef3085, 0x04881d05, 0xd9d4d039, 0xe6db99e5, 0x1fa27cf8, 0xc4ac5665,
  0xf4292244, 0x432aff97, 0xab9423a7, 0xfc93a039, 0x655b59c3, 0x8f0ccc92,
  0xffeff47d, 0x85845dd1, 0x6fa87e4f, 0xfe2ce6e0, 0xa3014314, 0x4e0811a1,
  0xf7537e82, 0xbd3af235, 0x2ad7d2bb, 0xeb86d391]

/-- How far the sum of a round is rotated. -/
def md5Rotation (i : Nat) : Nat :=
  #[7, 12, 17, 22, 5, 9, 14, 20, 4, 11, 16, 23, 6, 10, 15, 21].getD (i / 16 * 4 + i % 4) 0

/-- One round. -/
def md5Round (block : Array Nat) (s : EarlyState) (i : Nat) : EarlyState :=
  let (mixed, k) :=
    if i < 16 then ((s.b &&& s.c) ||| (~~~s.b &&& s.d), i)
    else if i < 32 then ((s.d &&& s.b) ||| (~~~s.d &&& s.c), (5 * i + 1) % 16)
    else if i < 48 then (s.b ^^^ s.c ^^^ s.d, (3 * i + 5) % 16)
    else (s.c ^^^ (s.b ||| ~~~s.d), 7 * i % 16)
  let sum := s.a + mixed + sines.getD i 0 + UInt32.ofNat (block.getD k 0)
  { s with a := s.d, d := s.c, c := s.b, b := s.b + rotateLeft sum (md5Rotation i) }

/-- How MD5 cuts its message. -/
def md5Cut : Cut := ⟨64, 4, 8, false⟩

/-- MD5. -/
def md5 (message : ByteArray) : List UInt8 :=
  let compress (s : EarlyState) (block : Array Nat) : EarlyState :=
    s.add ((List.range 64).foldl (md5Round block) s)
  let last := md5Cut.fold compress {} message
  (last.words.take 4).flatMap fun w => md5Cut.bytes 4 w.toNat

/-! ## SHA-1 -/

/-- The 80 words of the schedule of a block. -/
def sha1Schedule (block : Array Nat) : Array UInt32 :=
  (List.range 64).foldl (fun ws i =>
    let w (k : Nat) : UInt32 := ws.getD k 0
    ws.push (rotateLeft (w i ^^^ w (i + 2) ^^^ w (i + 8) ^^^ w (i + 13)) 1))
    (block.map UInt32.ofNat)

/-- One round. -/
def sha1Round (ws : Array UInt32) (s : EarlyState) (i : Nat) : EarlyState :=
  let (mixed, constant) :=
    if i < 20 then ((s.b &&& s.c) ||| (~~~s.b &&& s.d), 0x5a827999)
    else if i < 40 then (s.b ^^^ s.c ^^^ s.d, 0x6ed9eba1)
    else if i < 60 then ((s.b &&& s.c) ||| (s.b &&& s.d) ||| (s.c &&& s.d), 0x8f1bbcdc)
    else (s.b ^^^ s.c ^^^ s.d, 0xca62c1d6)
  let sum := rotateLeft s.a 5 + mixed + s.e + constant + ws.getD i 0
  { a := sum, b := s.a, c := rotateLeft s.b 30, d := s.c, e := s.d }

/-- How SHA-1 cuts its message. -/
def sha1Cut : Cut := ⟨64, 4, 8, true⟩

/-- SHA-1. -/
def sha1 (message : ByteArray) : List UInt8 :=
  let compress (s : EarlyState) (block : Array Nat) : EarlyState :=
    s.add ((List.range 80).foldl (sha1Round (sha1Schedule block)) s)
  let last := sha1Cut.fold compress {} message
  last.words.flatMap fun w => sha1Cut.bytes 4 w.toNat

end Reflash.Digest
