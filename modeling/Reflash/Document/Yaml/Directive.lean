import Reflash.Document.Yaml.Scalar
import Reflash.Document.Yaml.Token

set_option autoImplicit false

/-! # Directives, names and tags of a YAML text -/

namespace Reflash.Yaml

/-- Whether `c` may occur in a name. -/
def isNameChar (c : Char) : Bool :=
  c.isAlphanum || c == '-' || c == '_'

/-- Whether `c` may occur in the written form of a tag. -/
def isTagChar (c : Char) : Bool :=
  c.isAlphanum || "-;/?:@&=+$,_.!~*'()[]%".toList.contains c

/-- A name that is not empty. -/
def name : Reader String := fun c =>
  let (cs, c) := c.span isNameChar
  if cs.isEmpty then refuse else .ok (String.ofList cs, c)

/-- The name behind the mark of an anchor or an alias. -/
def anchorName : Reader String := fun c => do
  let (text, c) ← name c.advance
  let ends (x : Char) : Bool := isSeparator x || "?:,]\x7d%@\x60".toList.contains x
  if endsOr ends c.rest then return (text, c) else refuse

/-! ## Tags -/

/-- Bytes written as escapes of two hexadecimal digits each. -/
def escapedBytes : Nat → List UInt8 → Reader (List UInt8)
  | 0, acc, c => .ok (acc.reverse, c)
  | fuel + 1, acc, c =>
    match c.rest with
    | '%' :: a :: b :: _ =>
      match Json.hexNumber? [a, b] with
      | some n => escapedBytes fuel (UInt8.ofNat n :: acc) (Cursor.advanceBy 3 c)
      | none => refuse
    | '%' :: _ => refuse
    | _ => .ok (acc.reverse, c)

/-- The part of a tag behind its handle, after the characters in `acc`, last one first. -/
def tagSuffixFrom : Nat → List Char → Reader String
  | 0, acc, c => .ok (String.ofList acc.reverse, c)
  | fuel + 1, acc, c =>
    match c.rest with
    | '%' :: _ => do
      let (bytes, c) ← escapedBytes c.rest.length [] c
      match String.fromUTF8? ⟨bytes.toArray⟩ with
      | some s => tagSuffixFrom fuel (s.toList.reverse ++ acc) c
      | none => refuse
    | ch :: _ =>
      if isTagChar ch then tagSuffixFrom fuel (ch :: acc) c.advance
      else .ok (String.ofList acc.reverse, c)
    | [] => .ok (String.ofList acc.reverse, c)

/-- The part of a tag behind its handle, which is not empty. -/
def tagSuffix : Reader String := fun c => do
  if c.at_ isTagChar then tagSuffixFrom c.rest.length [] c else refuse

/-- A handle: a name between two marks, or one or two marks. -/
def tagHandle : Reader String := fun c =>
  match c.rest with
  | '!' :: ' ' :: _ => .ok ("!", c.advance)
  | '!' :: rest =>
    let middle := rest.takeWhile isNameChar
    if (rest.drop middle.length).head? == some '!' then
      .ok (String.ofList ('!' :: middle ++ ['!']), Cursor.advanceBy (middle.length + 2) c)
    else refuse
  | _ => refuse

/-- Whether a second mark follows in the tag whose first mark was left behind. -/
def hasHandle (cs : List Char) : Bool :=
  (cs.takeWhile fun c => !isSpaceOrBreak c).contains '!'

/-- A tag, from its mark on. -/
def tag : Reader TagText := fun c => do
  let (text, c) ← match c.rest with
    | '!' :: '<' :: _ => do
      let (suffix, c) ← tagSuffix (Cursor.advanceBy 2 c)
      if c.at_ (· == '>') then pure (⟨none, suffix⟩, c.advance) else refuse
    | _ :: rest =>
      if endsOr isSeparator rest then pure (⟨none, "!"⟩, c.advance)
      else if hasHandle rest then do
        let (handle, c) ← tagHandle c
        let (suffix, c) ← tagSuffix c
        pure (⟨some handle, suffix⟩, c)
      else do
        let (suffix, c) ← tagSuffix c.advance
        pure (⟨some "!", suffix⟩, c)
    | [] => refuse
  if endsOr isSpaceOrBreak c.rest then return ((text : TagText), c) else refuse

/-! ## Directives -/

/-- A run of decimal digits that is not empty. -/
def digits : Reader Nat := fun c =>
  let (cs, c) := c.span Char.isDigit
  if cs.isEmpty then refuse else .ok (Json.decimal cs, c)

/-- The version that a document claims to be written in. -/
def versionDirective : Reader Directive := fun c => do
  let (major, c) ← digits (c.skip (· == ' '))
  if !c.at_ (· == '.') then refuse
  let (_, c) ← digits c.advance
  if endsOr isSpaceOrBreak c.rest then return (.version major, c) else refuse

/-- What a handle stands for. -/
def handleDirective : Reader Directive := fun c => do
  let (handle, c) ← tagHandle (c.skip (· == ' '))
  if !c.at_ (· == ' ') then refuse
  let (target, c) ← tagSuffix (c.skip (· == ' '))
  if endsOr isSpaceOrBreak c.rest then return (.handle handle target, c) else refuse

/-- A directive with its line, from its mark on. -/
def directive : Reader Directive := fun c => do
  let (title, c) ← name c.advance
  if !endsOr isSpaceOrBreak c.rest then refuse
  let (d, c) ←
    if title == "YAML" then versionDirective c
    else if title == "TAG" then handleDirective c
    else pure (.other, c.skip (!isBreak ·))
  return (d, ← c.endLine)

end Reflash.Yaml
