import Reflash.Archive.Inflate
import Reflash.Archive.Listing
import Reflash.Digest.Crc32
import Reflash.Text.Search

set_option autoImplicit false

/-! # Zip archives

The end of a zip archive says where its directory is, and the directory says where the files are.
Names that are absolute or could lead out of the directory they are unpacked into are left out. -/

namespace Reflash.Archive.Zip

/-! ## Names -/

/-- The characters behind the ASCII ones in names that are not marked as Unicode. -/
def oldCharacters : Array Char :=
  ("ÇüéâäàåçêëèïîìÄÅÉæÆôöòûùÿÖÜ¢£¥₧ƒáíóúñÑªº¿⌐¬½¼¡«»" ++
    "░▒▓│┤╡╢╖╕╣║╗╝╜╛┐└┴┬├─┼╞╟╚╔╩╦╠═╬╧╨╤╥╙╘╒╓╫╪┘┌█▄▌▐▀" ++
    "αßΓπΣσµτΦΘΩδ∞φε∩≡±≥≤⌠⌡÷≈°∙·√ⁿ²■\xa0").toList.toArray

/-- A character of a name that is not marked as Unicode. -/
def oldCharacter (b : UInt8) : Char :=
  if b < 128 then Char.ofNat b.toNat else oldCharacters[b.toNat - 128]?.getD '?'

/-- The name that bytes encode, up to the first zero. -/
def nameOf? (unicode : Bool) (bytes : ByteArray) : Option String := do
  let text ← if unicode then String.fromUTF8? bytes
    else some (String.ofList (bytes.toList.map oldCharacter))
  return String.ofList (text.toList.takeWhile (· != '\x00'))

/-- Whether a name leads to a place below the directory of the archive. -/
def staysInside (name : String) : Bool :=
  !name.startsWith "/" && !Text.contains name ".."

/-! ## The directory -/

/-- What the directory says about one file. -/
structure Record where
  name : String
  rawName : ByteArray
  flags : Nat
  method : Nat
  check : Nat
  packed : Nat
  size : Nat
  offset : Nat

/-- The record that begins at `i`, and the index behind it. -/
def record? (data : ByteArray) (i : Nat) : Option (Record × Nat) := do
  if (← number? data i 4) != 0x02014B50 then none
  let flags ← number? data (i + 8) 2
  let method ← number? data (i + 10) 2
  let check ← number? data (i + 16) 4
  let packed ← number? data (i + 20) 4
  let size ← number? data (i + 24) 4
  let nameSize ← number? data (i + 28) 2
  let extraSize ← number? data (i + 30) 2
  let commentSize ← number? data (i + 32) 2
  let offset ← number? data (i + 42) 4
  let rawName ← slice? data (i + 46) nameSize
  let name ← nameOf? (flags / 2048 % 2 = 1) rawName
  return ({ name, rawName, flags, method, check, packed, size, offset },
    i + 46 + nameSize + extraSize + commentSize)

/-- The records between two indices; each is longer than a byte. -/
def records? (data : ByteArray) (stop : Nat) : Nat → Nat → Option (List Record)
  | 0, _ => none
  | fuel + 1, i =>
    if stop ≤ i then some []
    else do
      let (r, next) ← record? data i
      let rest ← records? data stop fuel next
      return r :: rest

/-- The index of the last mark of the end of an archive, at most `count` bytes before `i`. -/
def endMark? (data : ByteArray) (i : Nat) : Nat → Option Nat
  | 0 => none
  | count + 1 =>
    if number? data i 4 == some 0x06054B50 && i + 22 ≤ data.size then some i
    else if i = 0 then none
    else endMark? data (i - 1) count

/-- Where the end of an archive is described: at most a comment stands behind. -/
def endOf? (data : ByteArray) : Option Nat :=
  if data.size < 22 then none else endMark? data (data.size - 22) 65536

/-- The records of an archive, and how many bytes stand before it. -/
def directory? (data : ByteArray) : Option (List Record × Nat) := do
  let i ← endOf? data
  let size ← number? data (i + 12) 4
  let start ← number? data (i + 16) 4
  if i < size + start then none
  let before := i - size - start
  return (← records? data i (data.size + 1) (start + before), before)

/-! ## The files -/

/-- The stored form of a file's content, if its record and its own header agree. -/
def packed? (data : ByteArray) (before : Nat) (r : Record) : Option ByteArray := do
  let i := r.offset + before
  if (← number? data i 4) != 0x04034B50 then none
  let nameSize ← number? data (i + 26) 2
  let extraSize ← number? data (i + 28) 2
  if (← slice? data (i + 30) nameSize) != r.rawName then none
  if r.flags % 2 = 1 || (r.method != 0 && r.method != 8) then none
  slice? data (i + 30 + nameSize + extraSize) r.packed

/-- The content of a file, if it passes its check. -/
def content? (r : Record) (packed : ByteArray) : Option ByteArray := do
  let content ← if r.method = 0 then some packed else (Inflate.run packed 0).map Prod.fst
  let content := content.extract 0 r.size
  if (Digest.crc32 content).toNat = r.check then some content else none

/-- The part of a name that names a directory. -/
def directoryOf (name : String) : String :=
  "/".intercalate (Text.split '/' name).dropLast

/-- The entry of a record, and whether it is sound. Of a file without a header only the directory
is listed, and a file whose content fails its check is listed as empty. -/
def entry (data : ByteArray) (before : Nat) (r : Record) : Entry × Bool :=
  if r.name.endsWith "/" then (⟨r.name, none⟩, true)
  else
    match packed? data before r with
    | none => (⟨directoryOf r.name, none⟩, false)
    | some packed =>
      match content? r packed with
      | some content => (⟨r.name, some content⟩, true)
      | none => (⟨r.name, some .empty⟩, false)

/-- The entries of records. Of several records of one name the last one says what it holds. -/
def entriesOf (data : ByteArray) (before : Nat) (all : List Record) : List Record → Listing
  | [] => {}
  | r :: rs =>
    let last := ((all.reverse.find? fun other => other.name == r.name)).getD r
    match entry data before last with
    | (e, true) => (entriesOf data before all rs).cons e
    | (e, false) => Listing.flawed.cons e

/-- What a zip archive holds. -/
def read (data : ByteArray) : Listing :=
  match directory? data with
  | none => .flawed
  | some (records, before) =>
    entriesOf data before records (records.filter fun r => staysInside r.name)

end Reflash.Archive.Zip
