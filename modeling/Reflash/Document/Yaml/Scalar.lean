import Reflash.Document.Json
import Reflash.Document.Yaml.Cursor

set_option autoImplicit false

/-! # Scalars of a YAML text

The three ways to write a text: plain, between quotes, and as an indented block. Line ends inside a
text are folded: a single one reads as a space, and of several the first one vanishes. -/

namespace Reflash.Yaml

/-- A part of a text and the cursor behind it. -/
abbrev Reader (α : Type) := Cursor → Fallible (α × Cursor)

/-- What line ends read as: the first one and those that follow it. -/
def folded (first : List Char) (others : List Char) : List Char :=
  (if first != ['\n'] then first else if others.isEmpty then [' '] else []) ++ others

/-! ## Quoted -/

/-- What an escape of one character stands for. -/
def escape? : Char → Option Char
  | '0' => some '\x00'
  | 'a' => some '\x07'
  | 'b' => some '\x08'
  | 't' => some '\t'
  | '\t' => some '\t'
  | 'n' => some '\n'
  | 'v' => some '\x0b'
  | 'f' => some '\x0c'
  | 'r' => some '\r'
  | 'e' => some '\x1b'
  | ' ' => some ' '
  | '"' => some '"'
  | '\\' => some '\\'
  | '/' => some '/'
  | 'N' => some '\u0085'
  | '_' => some '\u00a0'
  | 'L' => some '\u2028'
  | 'P' => some '\u2029'
  | _ => none

/-- How many hexadecimal digits follow an escape. -/
def escapeDigits? : Char → Option Nat
  | 'x' => some 2
  | 'u' => some 4
  | 'U' => some 8
  | _ => none

/-- The character with a code point; the largest numbers do not even fit the operation. -/
def character (code : Nat) : Fallible Char :=
  if 0x80000000 ≤ code then .error .overflow
  else if 0x110000 ≤ code then .error (.invalid "chr() arg not in range(0x110000)")
  else if 0xD800 ≤ code && code < 0xE000 then .ok '\uFFFD'
  else .ok (Char.ofNat code)

/-- Line ends in a quoted text, each of which may be followed by blanks. A document cannot end
inside it. -/
def quotedBreaks : Nat → List Char → Reader (List Char)
  | 0, acc, c => .ok (acc.reverse, c)
  | fuel + 1, acc, c =>
    if c.separates then refuse
    else
      let c := c.skip fun ch => ch == ' ' || ch == '\t'
      match c.lineBreak with
      | ([], c) => .ok (acc.reverse, c)
      | (br, c) => quotedBreaks fuel (br.reverse ++ acc) c

/-- Blanks in a quoted text, or the line ends that follow them. -/
def quotedSpaces : Reader (List Char) := fun c =>
  let (blanks, c) := c.span fun ch => ch == ' ' || ch == '\t'
  match c.rest with
  | [] => refuse
  | ch :: _ =>
    if isBreak ch then do
      let (br, c) := c.lineBreak
      let (others, c) ← quotedBreaks c.rest.length [] c
      return (folded br others, c)
    else .ok (blanks, c)

/-- A number of exactly `n` hexadecimal digits. -/
def hexadecimal (n : Nat) : Reader Nat := fun c =>
  let digits := c.rest.take n
  match Json.hexNumber? digits with
  | some code => if digits.length = n then .ok (code, Cursor.advanceBy n c) else refuse
  | none => refuse

/-- The second half of a character that is written as a pair of escapes, if one follows. -/
def lowHalf? (c : Cursor) : Option (Nat × Cursor) :=
  match c.rest with
  | '\\' :: 'u' :: _ =>
    ((hexadecimal 4 (Cursor.advanceBy 2 c)).toOption).filter fun (low, _) =>
      0xDC00 ≤ low && low < 0xE000
  | _ => none

/-- The character that an escape by its code point denotes, where two escapes may form a pair. -/
def escapedCharacter (n : Nat) : Reader Char := fun c => do
  let (code, c) ← hexadecimal n c
  if 0xD800 ≤ code && code < 0xDC00 then
    match lowHalf? c with
    | some (low, c) =>
      return (Char.ofNat (0x10000 + (code - 0xD800) * 0x400 + (low - 0xDC00)), c)
    | none => return (← character code, c)
  else return (← character code, c)

/-- An escape in a doubly quoted text, from behind its backslash on. -/
def escaped : Reader (List Char) := fun c =>
  match c.rest with
  | [] => refuse
  | ch :: _ =>
    match escape? ch with
    | some x => .ok ([x], c.advance)
    | none =>
      match escapeDigits? ch with
      | some n => (escapedCharacter n c.advance).map fun (x, c) => ([x], c)
      | none =>
        if isBreak ch then
          let c := c.lineBreak.2
          quotedBreaks c.rest.length [] c
        else refuse

/-- The rest of a quoted text, after the characters in `acc`, last one first. -/
def quotedFrom (quote : Char) : Nat → List Char → Reader String
  | 0, _, _ => refuse
  | fuel + 1, acc, c =>
    match c.rest with
    | [] => refuse
    | ch :: rest =>
      if ch == quote then
        if quote == '\'' && rest.head? == some '\'' then
          quotedFrom quote fuel ('\'' :: acc) (Cursor.advanceBy 2 c)
        else .ok (String.ofList acc.reverse, c.advance)
      else if isSeparator ch then do
        let (part, c) ← quotedSpaces c
        quotedFrom quote fuel (part.reverse ++ acc) c
      else if quote == '"' && ch == '\\' then do
        let (part, c) ← escaped c.advance
        quotedFrom quote fuel (part.reverse ++ acc) c
      else quotedFrom quote fuel (ch :: acc) c.advance

/-- A text between quotes. -/
def quoted : Reader String := fun c =>
  match c.rest with
  | [] => refuse
  | quote :: _ => quotedFrom quote c.rest.length [] c.advance

/-! ## Plain -/

/-- Whether a plain text ends before these characters. -/
def endsPlain (inFlow : Bool) : List Char → Bool
  | [] => true
  | ch :: rest =>
    isSeparator ch ||
      (ch == ':' &&
        endsOr (fun x => isSeparator x || (inFlow && ",[]\x7b\x7d".toList.contains x)) rest) ||
      (inFlow && ",?[]\x7b\x7d".toList.contains ch)

/-- A run of a plain text. -/
def plainRun (inFlow : Bool) : Nat → List Char → Cursor → List Char × Cursor
  | 0, acc, c => (acc.reverse, c)
  | fuel + 1, acc, c =>
    match c.rest with
    | [] => (acc.reverse, c)
    | ch :: _ =>
      if endsPlain inFlow c.rest then (acc.reverse, c)
      else plainRun inFlow fuel (ch :: acc) c.advance

/-- Line ends with spaces between them; nothing if a document begins or ends at one of them. -/
def plainBreaks : Nat → List Char → Cursor → Option (List Char) × Cursor
  | 0, acc, c => (some acc.reverse, c)
  | fuel + 1, acc, c =>
    if c.at_ (· == ' ') then plainBreaks fuel acc c.advance
    else
      match c.lineBreak with
      | ([], c) => (some acc.reverse, c)
      | (br, c) => if c.separates then (none, c) else plainBreaks fuel (br.reverse ++ acc) c

/-- What stands between two runs of a plain text: what it reads as, empty where the text ends, and
whether it holds a line end. -/
def plainSpaces (c : Cursor) : List Char × Bool × Cursor :=
  let (spaces, c) := c.span (· == ' ')
  match c.lineBreak with
  | ([], c) => (spaces, false, c)
  | (br, c) =>
    if c.separates then ([], true, c)
    else
      match plainBreaks c.rest.length [] c with
      | (none, c) => ([], true, c)
      | (some others, c) => (folded br others, true, c)

/-- A plain text that was read: what it says, whether a line end stands behind it, and the cursor
there. -/
structure PlainText where
  text : List Char
  lineEnded : Bool
  cursor : Cursor

/-- The rest of a plain text behind `acc`, last character first; `spaces` stands before it, and
outside of flow collections it is indented at least to a column. -/
def plainFrom (inFlow : Bool) (indent : Nat) :
    Nat → List Char → List Char → Bool → Cursor → PlainText
  | 0, acc, _, ended, c => ⟨acc.reverse, ended, c⟩
  | fuel + 1, acc, spaces, ended, c =>
    if c.at_ (· == '#') then ⟨acc.reverse, ended, c⟩
    else
      let (run, c) := plainRun inFlow c.rest.length [] c
      if run.isEmpty then ⟨acc.reverse, ended, c⟩
      else
        let acc := run.reverse ++ (spaces.reverse ++ acc)
        let (spaces, ended, c) := plainSpaces c
        if spaces.isEmpty || (!inFlow && c.column < indent) then ⟨acc.reverse, ended, c⟩
        else plainFrom inFlow indent fuel acc spaces ended c

/-- A plain text. -/
def plain (inFlow : Bool) (indent : Nat) (c : Cursor) : PlainText :=
  plainFrom inFlow indent (c.rest.length + 1) [] [] false c

/-! ## Blocks -/

/-- What becomes of the line ends at the end of a block. -/
inductive Chomping where
  | strip
  | clip
  | keep
deriving Repr, DecidableEq

/-- What the sign in the header of a block means. -/
def chomping? : Char → Option Chomping
  | '+' => some .keep
  | '-' => some .strip
  | _ => none

/-- The digit in the header of a block. -/
def increment? (c : Char) : Option Nat :=
  if c.isDigit then some (c.toNat - 48) else none

/-- The header of a block: a sign and a digit above zero, in any order, each at most once. -/
def blockHeader : Reader (Chomping × Option Nat) := fun c =>
  let (sign, c) :=
    match c.rest.head?.bind chomping? with
    | some s => (some s, c.advance)
    | none => (none, c)
  let (digit, c) :=
    match c.rest.head?.bind increment? with
    | some d => (some d, c.advance)
    | none => (none, c)
  let (sign, c) :=
    match sign, digit, c.rest.head?.bind chomping? with
    | none, some _, some s => (some s, c.advance)
    | sign, _, _ => (sign, c)
  if digit == some 0 || !endsOr isSpaceOrBreak c.rest then refuse
  else .ok ((sign.getD .clip, digit), c)

/-- Empty lines before the first line of a block, and the greatest column that they or it
reach with spaces. -/
def leadingLines : Nat → List Char → Nat → Cursor → List Char × Nat × Cursor
  | 0, acc, column, c => (acc.reverse, column, c)
  | fuel + 1, acc, column, c =>
    if c.at_ (· == ' ') then
      let c := c.advance
      leadingLines fuel acc (max column c.column) c
    else
      match c.lineBreak with
      | ([], c) => (acc.reverse, column, c)
      | (br, c) => leadingLines fuel (br.reverse ++ acc) column c

/-- Empty lines in a block whose lines begin at a column. -/
def blockBreaks (indent : Nat) : Nat → List Char → Cursor → List Char × Cursor
  | 0, acc, c => (acc.reverse, c)
  | fuel + 1, acc, c =>
    let c := c.skipSpacesTo indent
    match c.lineBreak with
    | ([], c) => (acc.reverse, c)
    | (br, c) => blockBreaks indent fuel (br.reverse ++ acc) c

/-- The lines of a block from the present one on, after the characters in `acc`, last one first:
the text without its last line end, that line end, and the empty lines behind it. -/
def blockLines (fold : Bool) (indent : Nat) :
    Nat → List Char → List Char → Cursor → List Char × List Char × List Char × Cursor
  | 0, acc, breaks, c => (acc.reverse, [], breaks, c)
  | fuel + 1, acc, breaks, c =>
    if c.column != indent || c.rest.isEmpty then (acc.reverse, [], breaks, c)
    else
      let indented := c.at_ fun ch => ch == ' ' || ch == '\t'
      let (line, c) := c.span (!isBreak ·)
      let acc := line.reverse ++ (breaks.reverse ++ acc)
      let (br, c) := c.lineBreak
      let (breaks, c) := blockBreaks indent c.rest.length [] c
      if c.column == indent && !c.rest.isEmpty then
        let next := c.at_ fun ch => ch == ' ' || ch == '\t'
        let joint :=
          if fold && br == ['\n'] && !indented && !next then
            if breaks.isEmpty then [' '] else []
          else br
        blockLines fold indent fuel (joint.reverse ++ acc) breaks c
      else (acc.reverse, br, breaks, c)

/-- A block, from its mark on, inside a collection of a given indentation. -/
def block (fold : Bool) (outer : Int) : Reader String := fun c => do
  let ((chomping, increment), c) ← blockHeader c.advance
  let c ← c.endLine
  let least := (max 1 (outer + 1)).toNat
  let (indent, breaks, c) :=
    match increment with
    | none =>
      let (breaks, column, c) := leadingLines c.rest.length [] 0 c
      (max least column, breaks, c)
    | some n =>
      let indent := least + n - 1
      let (breaks, c) := blockBreaks indent c.rest.length [] c
      (indent, breaks, c)
  let (text, last, others, c) := blockLines fold indent (c.rest.length + 1) [] breaks c
  let tail :=
    match chomping with
    | .strip => []
    | .clip => last
    | .keep => last ++ others
  return (String.ofList (text ++ tail), c)

end Reflash.Yaml
