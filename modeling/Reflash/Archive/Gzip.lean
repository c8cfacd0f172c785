import Reflash.Archive.Inflate
import Reflash.Digest.Crc32

set_option autoImplicit false

/-! # Gzip data

One or more members, each with a header, compressed data, and a check of what it stands for.
Zeros may follow. -/

namespace Reflash.Archive.Gzip

/-- The index behind the zero byte that ends a text, looked for in at most `fuel` bytes. -/
def behindText (data : ByteArray) : Nat → Nat → Option Nat
  | 0, _ => none
  | fuel + 1, i =>
    match data[i]? with
    | none => none
    | some b => if b = 0 then some (i + 1) else behindText data fuel (i + 1)

/-- The index behind a part of a header that is only there if a flag says so. -/
def behindIf (flags bit i : Nat) (behind : Nat → Option Nat) : Option Nat :=
  if flags / bit % 2 = 1 then behind i else some i

/-- The index behind the header that begins at `start`. -/
def behindHeader (data : ByteArray) (start : Nat) : Option Nat := do
  if (← number? data start 3) != 0x088B1F then none
  let flags ← number? data (start + 3) 1
  let i ← behindIf flags 4 (start + 10) fun i => (number? data i 2).map (i + 2 + ·)
  let i ← behindIf flags 8 i (behindText data data.size)
  let i ← behindIf flags 16 i (behindText data data.size)
  behindIf flags 2 i fun i => some (i + 2)

/-- What the member that begins at `start` stands for, and the index behind it. -/
def member (data : ByteArray) (start : Nat) : Option (ByteArray × Nat) := do
  let (content, i) ← Inflate.run data (← behindHeader data start)
  let check ← number? data i 4
  let size ← number? data (i + 4) 4
  if (Digest.crc32 content).toNat = check && content.size % Nat.pow 2 32 = size then
    some (content, i + 8)
  else none

/-- Whether only zeros follow from `start` on. -/
def onlyZeros (data : ByteArray) (start : Nat) : Bool :=
  (data.extract start data.size).data.all (· == 0)

/-- What the members from `start` on stand for; every one is longer than a byte. -/
def members (data : ByteArray) : Nat → Nat → Option ByteArray
  | 0, _ => none
  | fuel + 1, start =>
    match member data start with
    | none => none
    | some (content, next) =>
      if onlyZeros data next then some content
      else (members data fuel next).map (content ++ ·)

/-- Whether data begins like gzip data. -/
def looksRight (data : ByteArray) : Bool :=
  number? data 0 2 == some 0x8B1F

/-- What gzip data stands for. -/
def read (data : ByteArray) : Option ByteArray :=
  members data data.size 0

end Reflash.Archive.Gzip
