import Reflash.Archive.Gzip
import Reflash.Archive.Listing
import Reflash.Text.Search

set_option autoImplicit false

/-! # Tar archives

A tar archive is made of blocks of 512 bytes. Each entry has a header block and the blocks of its
content. The archive ends with a block of zeros, with the data, or at the first block that is no
header; the very first block must be one. Long names stand in entries of their own before the
entry that they belong to. -/

namespace Reflash.Archive.Tar

/-- The size of a block. -/
def blockSize : Nat := 512

/-- The bytes of a field up to the first zero. -/
def fieldBytes (block : ByteArray) (start size : Nat) : List UInt8 :=
  ((block.extract start (start + size)).toList).takeWhile (· != 0)

/-- The text that bytes encode; bytes that are no text stand for themselves. -/
def textOf (bytes : List UInt8) : String :=
  match String.fromUTF8? ⟨bytes.toArray⟩ with
  | some s => s
  | none => String.ofList (bytes.map fun b => Char.ofNat b.toNat)

/-- The value of octal digits with spaces around them. -/
def octal? (bytes : List UInt8) : Option Nat :=
  let digits := (bytes.dropWhile (· == 32)).reverse.dropWhile (· == 32)
  digits.foldr (fun b acc => acc.bind fun n =>
    if 48 ≤ b && b ≤ 55 then some (8 * n + (b.toNat - 48)) else none) (some 0)

/-- A number in a header: octal digits, or bytes behind a mark. -/
def field? (block : ByteArray) (start size : Nat) : Option Nat :=
  if block[start]? == some 0x80 then
    some (((block.extract (start + 1) (start + size)).toList).foldl
      (fun n b => 256 * n + b.toNat) 0)
  else octal? (fieldBytes block start size)

/-- The sum of the bytes of a header, its check counting as spaces. -/
def sumOf (block : ByteArray) : Nat :=
  let add (n : Nat) (b : UInt8) : Nat := n + b.toNat
  (block.extract 156 512).foldl add ((block.extract 0 148).foldl add 256)

/-- A header. -/
structure Header where
  name : String
  size : Nat
  kind : Char
deriving Repr

namespace Header

/-- The header that a block is. -/
def ofBlock? (block : ByteArray) : Option Header := do
  let check ← field? block 148 8
  if check != sumOf block then none
  let size ← field? block 124 12
  let kind := Char.ofNat (((block[156]?).getD 0).toNat)
  let name := textOf (fieldBytes block 0 100)
  let before := textOf (fieldBytes block 345 155)
  let name := if before.isEmpty || ['L', 'K', 'S'].contains kind then name
    else before ++ "/" ++ name
  return { name, size, kind }

/-- Whether a header begins a directory. -/
def isDirectory (h : Header) : Bool :=
  h.kind == '5' || (h.kind == '\x00' && h.name.endsWith "/")

/-- Whether a header begins a file. -/
def isFile (h : Header) : Bool :=
  ['0', '\x00', '7'].contains h.kind

/-- Whether content follows the header. -/
def hasContent (h : Header) : Bool :=
  !(['1', '2', '3', '4', '5', '6'].contains h.kind)

end Header

/-- What entries before an entry say about it. -/
structure Ahead where
  name : Option String := none
  size : Option Nat := none

/-- The records of an extended header, each with its length before it. -/
def extended (fuel : Nat) (bytes : List UInt8) (a : Ahead) : Ahead :=
  match fuel with
  | 0 => a
  | fuel + 1 =>
    let digits := bytes.takeWhile fun b => 48 ≤ b && b ≤ 57
    let length := digits.foldl (fun n b => 10 * n + (b.toNat - 48)) 0
    if digits.isEmpty || length ≤ digits.length + 1 then a
    else
      let record := (bytes.take (length - 1)).drop (digits.length + 1)
      let a :=
        match Text.splitFirst '=' (textOf record) with
        | some ("path", value) => { a with name := some value }
        | some ("size", value) => { a with size := value.toNat? }
        | _ => a
      extended fuel (bytes.drop length) a

/-- How many whole blocks hold `size` bytes. -/
def blocksFor (size : Nat) : Nat := (size + blockSize - 1) / blockSize

/-- The whole pieces of 16384 bytes from `start` on, which are what is left of a file that the end
of its archive cuts off. -/
def wholePieces (data : ByteArray) (start : Nat) : ByteArray :=
  data.extract start (start + (data.size - start) / 16384 * 16384)

/-- The entries from the block at `start` on. Each has at least a header. -/
def entriesFrom (data : ByteArray) : Nat → Nat → Ahead → Listing
  | 0, _, _ => {}
  | fuel + 1, start, ahead =>
    match slice? data start blockSize with
    | none => if start = 0 then .flawed else {}
    | some block =>
      if block.data.all (· == 0) then {}
      else
        match Header.ofBlock? block with
        | none => if start = 0 then .flawed else {}
        | some h =>
          let size := if h.hasContent then ahead.size.getD h.size else 0
          let content := start + blockSize
          let next := content + blockSize * blocksFor size
          let text := (data.extract content (content + size)).toList
          let name := ahead.name.getD h.name
          if h.kind == 'L' then
            let long := textOf (text.takeWhile (· != 0))
            entriesFrom data fuel next { ahead with name := some long }
          else if h.kind == 'x' then
            entriesFrom data fuel next (extended text.length text ahead)
          else if h.kind == 'K' || h.kind == 'g' then entriesFrom data fuel next ahead
          else if h.isDirectory then (entriesFrom data fuel next {}).cons ⟨name, none⟩
          else if h.isFile then
            match slice? data content size with
            | some c => (entriesFrom data fuel next {}).cons ⟨name, some c⟩
            | none => Listing.flawed.cons ⟨name, some (wholePieces data content)⟩
          else entriesFrom data fuel next {}

/-- What a tar archive holds, which may be compressed. -/
def read (data : ByteArray) : Listing :=
  let plain := if Gzip.looksRight data then Gzip.read data else some data
  match plain with
  | none => .flawed
  | some data => entriesFrom data (data.size / blockSize + 1) 0 {}

end Reflash.Archive.Tar
