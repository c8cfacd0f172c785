set_option autoImplicit false

/-! # The cyclic check of archives -/

namespace Reflash.Digest

/-- One step of division by the generating polynomial, whose bits stand in reverse. -/
def crcStep (n : UInt32) : UInt32 :=
  if n &&& 1 = 1 then (n >>> 1) ^^^ 0xEDB88320 else n >>> 1

/-- `count` steps of division. -/
def crcSteps : Nat → UInt32 → UInt32
  | 0, n => n
  | count + 1, n => crcSteps count (crcStep n)

/-- What each byte contributes. -/
def crcTable : Array UInt32 :=
  (Array.range 256).map fun b => crcSteps 8 (UInt32.ofNat b)

/-- The check of the bytes before and one byte more. -/
def crcByte (n : UInt32) (b : UInt8) : UInt32 :=
  crcTable[((n ^^^ b.toUInt32) &&& 0xFF).toNat]?.getD 0 ^^^ (n >>> 8)

/-- The check of some data. -/
def crc32 (data : ByteArray) : UInt32 :=
  data.foldl crcByte 0xFFFFFFFF ^^^ 0xFFFFFFFF

end Reflash.Digest
