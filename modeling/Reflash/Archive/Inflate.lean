import Reflash.Archive.PrefixCode

set_option autoImplicit false

/-! # Inflating

Compressed data is a sequence of blocks. A block holds bytes as they are, or symbols of two prefix
codes: bytes, and copies of what was written before, with a length and a distance. Every symbol
and every block takes at least one bit, so the number of bits bounds the loops over them. -/

namespace Reflash.Archive.Inflate

/-- The base value and the number of extra bits of a code: the first `flat` codes have no extra
bits, and from there on every `step` codes have one bit more. -/
def spread (flat step base : Nat) (code : Nat) : Nat × Nat :=
  if code < flat then (base + code, 0)
  else
    let extra := (code - flat) / step + 1
    (base + Nat.pow 2 extra * (step + (code - flat) % step), extra)

/-- The length of a copy by its code, which counts from zero; the last code is one of its own. -/
def copyLength (code : Nat) : Nat × Nat :=
  if code = 28 then (258, 0) else spread 8 4 3 code

/-- The distance of a copy by its code. -/
def copyDistance (code : Nat) : Nat × Nat :=
  spread 4 2 1 code

/-- The value of a code with its extra bits. -/
def withExtra (value : Nat × Nat) (r : Bits) : Option (Nat × Bits) := do
  let (extra, r) ← r.take value.2
  return (value.1 + extra, r)

/-- `count` bytes more, each the one that stands `distance` before it. -/
def copied (distance : Nat) : Nat → ByteArray → Option ByteArray
  | 0, out => some out
  | count + 1, out =>
    if distance = 0 || out.size < distance then none
    else
      match out[out.size - distance]? with
      | some b => copied distance count (out.push b)
      | none => none

/-- The bytes written so far and those that the symbols of a block stand for. -/
def symbols (bytes distances : PrefixCode) :
    Nat → ByteArray → Bits → Option (ByteArray × Bits)
  | 0, _, _ => none
  | fuel + 1, out, r =>
    match bytes.read r with
    | none => none
    | some (n, r) =>
      if n < 256 then symbols bytes distances fuel (out.push (UInt8.ofNat n)) r
      else if n = 256 then some (out, r)
      else if 285 < n then none
      else
        match copy n r with
        | none => none
        | some (length, distance, r) =>
          match copied distance length out with
          | none => none
          | some out => symbols bytes distances fuel out r
where
  /-- The length and the distance of a copy. -/
  copy (n : Nat) (r : Bits) : Option (Nat × Nat × Bits) := do
    let (length, r) ← withExtra (copyLength (n - 257)) r
    let (code, r) ← distances.read r
    if 29 < code then none
    let (distance, r) ← withExtra (copyDistance code) r
    return (length, distance, r)

/-! ## Blocks -/

/-- The lengths of the usual code for bytes and copies. -/
def usualLengths : List Nat :=
  List.replicate 144 8 ++ List.replicate 112 9 ++ List.replicate 24 7 ++ List.replicate 8 8

/-- The order in which a block gives the lengths of the code for lengths. -/
def lengthOrder : List Nat := [16, 17, 18, 0, 8, 7, 9, 6, 10, 5, 11, 4, 12, 3, 13, 2, 14, 1, 15]

/-- `count` numbers of three bits. -/
def threeBits (r : Bits) : Nat → Option (List Nat × Bits)
  | 0 => some ([], r)
  | count + 1 => do
    let (n, r) ← r.take 3
    let (ns, r) ← threeBits r count
    return (n :: ns, r)

/-- `needed` lengths, the last of `acc` being the first. A symbol is a length, or repeats the last
one or zero. -/
def lengths (code : PrefixCode) (needed : Nat) :
    Nat → List Nat → Bits → Option (List Nat × Bits)
  | 0, _, _ => none
  | fuel + 1, acc, r =>
    if needed ≤ acc.length then
      if acc.length = needed then some (acc.reverse, r) else none
    else
      match code.read r with
      | none => none
      | some (n, r) =>
        if n < 16 then lengths code needed fuel (n :: acc) r
        else
          match repeated n acc r with
          | none => none
          | some (more, r) => lengths code needed fuel (more ++ acc) r
where
  /-- The lengths that a repetition stands for. -/
  repeated (n : Nat) (acc : List Nat) (r : Bits) : Option (List Nat × Bits) := do
    if n = 16 then
      let last ← acc.head?
      let (more, r) ← r.take 2
      return (List.replicate (3 + more) last, r)
    else if n = 17 then
      let (more, r) ← r.take 3
      return (List.replicate (3 + more) 0, r)
    else
      let (more, r) ← r.take 7
      return (List.replicate (11 + more) 0, r)

/-- The two codes that a block brings with it. -/
def ownCodes (r : Bits) : Option (PrefixCode × PrefixCode × Bits) := do
  let (byteCount, r) ← r.take 5
  let (distanceCount, r) ← r.take 5
  let (lengthCount, r) ← r.take 4
  let (given, r) ← threeBits r (lengthCount + 4)
  let byOrder := lengthOrder.zip given
  let lengthCode ← PrefixCode.ofLengths? ((List.range 19).map fun n => (byOrder.lookup n).getD 0)
  let needed := byteCount + 257 + distanceCount + 1
  let (all, r) ← lengths lengthCode needed (needed + 1) [] r
  return (← PrefixCode.ofLengths? (all.take (byteCount + 257)),
    ← PrefixCode.ofLengths? (all.drop (byteCount + 257)), r)

/-- The bytes written so far and those of a block that holds them as they are. -/
def storedBlock (out : ByteArray) (r : Bits) : Option (ByteArray × Bits) := do
  let start := r.nextByte
  let size ← number? r.data start 2
  let check ← number? r.data (start + 2) 2
  if size + check != 65535 then none
  let content ← slice? r.data (start + 4) size
  return (out ++ content, { r with position := 8 * (start + 4 + size) })

/-- The bytes written so far and those of one block. -/
def block (fuel : Nat) (out : ByteArray) (r : Bits) : Option (ByteArray × Bits) := do
  let (kind, r) ← r.take 2
  if kind = 0 then storedBlock out r
  else if kind = 1 then
    let bytes ← PrefixCode.ofLengths? usualLengths
    symbols bytes (← PrefixCode.ofLengths? (List.replicate 30 5)) fuel out r
  else if kind = 2 then
    let (bytes, distances, r) ← ownCodes r
    symbols bytes distances fuel out r
  else none

/-- The bytes written so far and those of all blocks up to the last one. -/
def blocks (bits : Nat) : Nat → ByteArray → Bits → Option (ByteArray × Bits)
  | 0, _, _ => none
  | fuel + 1, out, r =>
    match r.bit with
    | none => none
    | some (last, r) =>
      match block bits out r with
      | none => none
      | some (out, r) => if last = 1 then some (out, r) else blocks bits fuel out r

/-- What compressed data from byte `start` on stands for, and the index of the byte behind it. -/
def run (data : ByteArray) (start : Nat) : Option (ByteArray × Nat) := do
  let bits := 8 * data.size + 1
  let (out, r) ← blocks bits bits ByteArray.empty { data, position := 8 * start }
  return (out, r.nextByte)

end Reflash.Archive.Inflate
