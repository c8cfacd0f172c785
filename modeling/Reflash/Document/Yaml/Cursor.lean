import Reflash.Fault

set_option autoImplicit false

/-! # Places in a YAML text

A cursor is the rest of the text with the place where it begins. Four characters end a line, and a
carriage return with the line feed behind it ends it once; all but two of them read as a line
feed. -/

namespace Reflash.Yaml

/-- The failure of every text that is no document. -/
def refuse {α : Type} : Fallible α := .error (.malformed .yaml)

/-- Whether `c` ends a line. -/
def isBreak (c : Char) : Bool :=
  c == '\n' || c == '\r' || c == '\u0085' || c == '\u2028' || c == '\u2029'

/-- Whether `c` is a space or ends a line. -/
def isSpaceOrBreak (c : Char) : Bool := c == ' ' || isBreak c

/-- Whether `c` stands between words: a space, a tab, or the end of a line. -/
def isSeparator (c : Char) : Bool := c == ' ' || c == '\t' || isBreak c

/-- Whether `c` may occur in a document. -/
def isAllowed (c : Char) : Bool :=
  let n := c.toNat
  n == 9 || n == 10 || n == 13 || (32 ≤ n && n ≤ 126) || n == 0x85 ||
    (0xA0 ≤ n && n ≤ 0xFFFD) || 0x10000 ≤ n

/-- Whether the text ends or goes on with a character of a class. -/
def endsOr (p : Char → Bool) : List Char → Bool
  | [] => true
  | c :: _ => p c

/-- Whether the text goes on with a character of a class. -/
def startsWith (p : Char → Bool) : List Char → Bool
  | [] => false
  | c :: _ => p c

/-- The rest of a text and the place where it begins. -/
structure Cursor where
  rest : List Char
  index : Nat := 0
  line : Nat := 0
  column : Nat := 0
deriving Inhabited

namespace Cursor

/-- The cursor behind the next character. -/
def advance (c : Cursor) : Cursor :=
  match c.rest with
  | [] => c
  | ch :: rest =>
    let index := c.index + 1
    if ch == '\r' && rest.head? == some '\n' then
      { c with rest, index, column := c.column + 1 }
    else if isBreak ch then { rest, index, line := c.line + 1, column := 0 }
    else { c with rest, index, column := if ch == '\uFEFF' then c.column else c.column + 1 }

/-- The cursor behind the next `n` characters. -/
def advanceBy : Nat → Cursor → Cursor
  | 0, c => c
  | n + 1, c => advanceBy n c.advance

/-- The next characters as long as they are of a class, and the cursor behind them. -/
def span (p : Char → Bool) (c : Cursor) : List Char × Cursor :=
  let taken := c.rest.takeWhile p
  (taken, advanceBy taken.length c)

/-- The cursor behind the next characters of a class. -/
def skip (p : Char → Bool) (c : Cursor) : Cursor := (c.span p).2

/-- The cursor behind the next spaces, up to a column. -/
def skipSpacesTo (column : Nat) (c : Cursor) : Cursor :=
  let spaces := (c.rest.takeWhile (· == ' ')).length
  advanceBy (min spaces (column - c.column)) c

/-- The end of a line, as it reads, and the cursor behind it; nothing if the line goes on. -/
def lineBreak (c : Cursor) : List Char × Cursor :=
  match c.rest with
  | '\r' :: '\n' :: _ => (['\n'], advanceBy 2 c)
  | ch :: _ =>
    if ch == '\u2028' || ch == '\u2029' then ([ch], c.advance)
    else if isBreak ch then (['\n'], c.advance)
    else ([], c)
  | [] => ([], c)

/-- Whether the next character is of a class. -/
def at_ (p : Char → Bool) (c : Cursor) : Bool := startsWith p c.rest

/-- Whether a line that marks the begin or the end of a document starts here, with its mark
repeated three times. -/
def marks (mark : Char) (c : Cursor) : Bool :=
  match c.rest with
  | x :: y :: z :: rest => x == mark && y == mark && z == mark && endsOr isSeparator rest
  | _ => false

/-- Whether the begin or the end of a document is marked here. -/
def separates (c : Cursor) : Bool := c.marks '-' || c.marks '.'

/-- The cursor behind spaces and a comment, which must end the line. -/
def endLine (c : Cursor) : Fallible Cursor :=
  let c := c.skip (· == ' ')
  let c := if c.at_ (· == '#') then c.skip (!isBreak ·) else c
  if endsOr isBreak c.rest then .ok c.lineBreak.2 else refuse

end Cursor

end Reflash.Yaml
