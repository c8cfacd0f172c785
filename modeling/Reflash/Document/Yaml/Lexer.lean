import Reflash.Document.Yaml.Directive

set_option autoImplicit false

/-! # From text to tokens

Outside of brackets, indentation tells where collections begin and end. A mapping is recognised by
its first colon only, so wherever a key could begin its place is remembered (`KeyPlace`), and the
tokens that announce the key are put in there once the colon is found. A key without the mark of
one is at most 1024 characters long and ends on the line where it begins. -/

namespace Reflash.Yaml

/-- Where a key may have begun: how many tokens stand before it, and its place in the text. A key
is required where nothing but a key can stand at this indentation. -/
structure KeyPlace where
  tokens : Nat
  required : Bool
  index : Nat
  line : Nat
  column : Nat
deriving Inhabited

/-- How far the text was read. -/
structure Lexer where
  cursor : Cursor
  /-- The tokens that were read, last one first. -/
  tokens : List Token := []
  /-- How many brackets are open. -/
  depth : Nat := 0
  /-- The column of the present collection; -1 outside of all. -/
  indent : Int := -1
  /-- The columns of the collections around it, the nearest one first. -/
  outer : List Int := []
  /-- Whether a key may begin at the next token. -/
  keyAllowed : Bool := true
  /-- Where a key may have begun, by the number of brackets around it. -/
  keys : List (Nat × KeyPlace) := []
deriving Inhabited

namespace Lexer

/-- Adds a token. -/
def push (s : Lexer) (t : Token) : Lexer := { s with tokens := t :: s.tokens }

/-- Leaves the next characters behind. -/
def forward (s : Lexer) (n : Nat) : Lexer := { s with cursor := Cursor.advanceBy n s.cursor }

/-! ## Places of keys -/

/-- Where a key may have begun inside the present brackets. -/
def key? (s : Lexer) : Option KeyPlace := s.keys.lookup s.depth

/-- Forgets where a key may have begun inside the present brackets. -/
def dropKey (s : Lexer) : Lexer := { s with keys := s.keys.filter fun k => k.1 != s.depth }

/-- Forgets it unless the key was required. -/
def removeKey (s : Lexer) : Fallible Lexer :=
  match s.key? with
  | some k => if k.required then refuse else .ok s.dropKey
  | none => .ok s

/-- Whether a key that began at a place can still end here. -/
def reaches (s : Lexer) (k : KeyPlace) : Bool :=
  k.line == s.cursor.line && s.cursor.index - k.index ≤ 1024

/-- Forgets the places of keys that can no longer end here. -/
def expireKeys (s : Lexer) : Fallible Lexer :=
  if s.keys.any fun k => !s.reaches k.2 && k.2.required then refuse
  else .ok { s with keys := s.keys.filter fun k => s.reaches k.2 }

/-- Remembers that a key may begin here. -/
def saveKey (s : Lexer) : Fallible Lexer :=
  if !s.keyAllowed then .ok s
  else do
    let s ← s.removeKey
    let place : KeyPlace := {
      tokens := s.tokens.length
      required := s.depth == 0 && s.indent == s.cursor.column
      index := s.cursor.index
      line := s.cursor.line
      column := s.cursor.column }
    return { s with keys := (s.depth, place) :: s.keys }

/-! ## Indentation -/

/-- Ends the collections that are indented further than a column. -/
def unwindTo (column : Int) : List Int → Lexer → Lexer
  | [], s => s
  | outer :: rest, s =>
    if column < s.indent then
      unwindTo column rest { s.push .blockEnd with indent := outer, outer := rest }
    else s

/-- Ends the collections that are indented further than a column, outside of brackets. -/
def unwind (s : Lexer) (column : Int) : Lexer :=
  if s.depth == 0 then unwindTo column s.outer s else s

/-- Whether a collection can begin at a column, and the lexer inside it. -/
def indentTo (s : Lexer) (column : Nat) : Bool × Lexer :=
  if s.indent < column then
    (true, { s with indent := column, outer := s.indent :: s.outer })
  else (false, s)

/-- The tokens with some put in behind the first `n` of them. -/
def insertAt (n : Nat) (new : List Token) (tokens : List Token) : List Token :=
  let later := tokens.take (tokens.length - n)
  later ++ new.reverse ++ tokens.drop (tokens.length - n)

/-! ## Tokens -/

/-- Leaves spaces, comments and line ends behind; outside of brackets a key may begin on every
line. -/
def skipToToken : Nat → Lexer → Lexer
  | 0, s => s
  | fuel + 1, s =>
    let c := s.cursor.skip (· == ' ')
    let c := if c.at_ (· == '#') then c.skip (!isBreak ·) else c
    match c.lineBreak with
    | ([], c) => { s with cursor := c }
    | (_, c) =>
      skipToToken fuel { s with cursor := c, keyAllowed := s.keyAllowed || s.depth == 0 }

/-- The begin of what stands outside of any collection. -/
def toOutside (s : Lexer) : Fallible Lexer := do
  let s ← (s.unwind (-1)).removeKey
  return { s with keyAllowed := false }

/-- A mark of three characters. -/
def documentMark (s : Lexer) (t : Token) : Fallible Lexer := do
  return ((← s.toOutside).forward 3).push t

/-- A directive. -/
def directive (s : Lexer) : Fallible Lexer := do
  let s ← s.toOutside
  let (d, c) ← Yaml.directive s.cursor
  return { s with cursor := c }.push (.directive d)

/-- An opening bracket, which may begin a key. -/
def openBracket (s : Lexer) (t : Token) : Fallible Lexer := do
  let s ← s.saveKey
  return ({ s with depth := s.depth + 1, keyAllowed := true }.forward 1).push t

/-- A closing bracket. -/
def closeBracket (s : Lexer) (t : Token) : Fallible Lexer := do
  let s ← s.removeKey
  if s.depth == 0 then refuse
  return ({ s with depth := s.depth - 1, keyAllowed := false }.forward 1).push t

/-- A comma inside brackets. -/
def comma (s : Lexer) : Fallible Lexer := do
  let s ← s.removeKey
  return ({ s with keyAllowed := true }.forward 1).push .flowEntry

/-- The begin of a collection at the present column, if none is open there. -/
def beginAt (s : Lexer) (t : Token) : Fallible Lexer :=
  if s.depth != 0 then .ok s
  else if !s.keyAllowed then refuse
  else
    match s.indentTo s.cursor.column with
    | (true, s) => .ok (s.push t)
    | (false, s) => .ok s

/-- The mark of an element. -/
def entry (s : Lexer) : Fallible Lexer := do
  let s ← (← s.beginAt .blockSequence).removeKey
  return ({ s with keyAllowed := true }.forward 1).push .entry

/-- The mark of a key. -/
def keyMark (s : Lexer) : Fallible Lexer := do
  let s ← (← s.beginAt .blockMapping).removeKey
  return ({ s with keyAllowed := s.depth == 0 }.forward 1).push .key

/-- The mark of a value: behind a key whose begin was remembered, or standing alone. -/
def valueMark (s : Lexer) : Fallible Lexer := do
  match s.key? with
  | some k =>
    let s := s.dropKey
    let (begins, s) := if s.depth == 0 then s.indentTo k.column else (false, s)
    let new := if begins then [.blockMapping, .key] else [Token.key]
    let s := { s with tokens := insertAt k.tokens new s.tokens, keyAllowed := false }
    return (s.forward 1).push .value
  | none =>
    let s ← s.beginAt .blockMapping
    return ({ s with keyAllowed := s.depth == 0 }.forward 1).push .value

/-- A token behind which no key may begin, and which may begin one itself. -/
def word {α : Type} (s : Lexer) (read : Reader α) (token : α → Token) : Fallible Lexer := do
  let s ← s.saveKey
  let (a, c) ← read s.cursor
  return { s with cursor := c, keyAllowed := false }.push (token a)

/-- A block of text. -/
def blockText (s : Lexer) (fold : Bool) : Fallible Lexer := do
  let s ← s.removeKey
  let (text, c) ← block fold s.indent s.cursor
  return { s with cursor := c, keyAllowed := true }.push (.scalar text false)

/-- A plain text. -/
def plainText (s : Lexer) : Fallible Lexer := do
  let s ← s.saveKey
  let p := plain (s.depth != 0) (s.indent + 1).toNat s.cursor
  return { s with cursor := p.cursor, keyAllowed := p.lineEnded }.push
    (.scalar (String.ofList p.text) true)

/-- Whether a plain text can begin with `c`, which `rest` follows. -/
def beginsPlain (inFlow : Bool) (c : Char) (rest : List Char) : Bool :=
  !(isSeparator c || "-?:,[]\x7b\x7d#&*!|>\x27\"%@\x60".toList.contains c) ||
    (!endsOr isSeparator rest && (c == '-' || (!inFlow && (c == '?' || c == ':'))))

/-- The next token of a text that is not at its end. -/
def nextToken (s : Lexer) (ch : Char) (rest : List Char) : Fallible Lexer :=
  let inFlow := s.depth != 0
  let apart := endsOr isSeparator rest
  let atStart := s.cursor.column == 0
  if ch == '%' && atStart then s.directive
  else if atStart && s.cursor.marks '-' then s.documentMark .documentStart
  else if atStart && s.cursor.marks '.' then s.documentMark .documentEnd
  else if ch == '[' then s.openBracket .flowSequence
  else if ch == '\x7b' then s.openBracket .flowMapping
  else if ch == ']' then s.closeBracket .flowSequenceEnd
  else if ch == '\x7d' then s.closeBracket .flowMappingEnd
  else if ch == ',' then s.comma
  else if ch == '-' && apart then s.entry
  else if ch == '?' && (inFlow || apart) then s.keyMark
  else if ch == ':' && (inFlow || apart) then s.valueMark
  else if ch == '*' then s.word anchorName .alias
  else if ch == '&' then s.word anchorName .anchor
  else if ch == '!' then s.word tag .tag
  else if ch == '|' && !inFlow then s.blockText false
  else if ch == '>' && !inFlow then s.blockText true
  else if ch == '\'' || ch == '"' then s.word quoted fun text => .scalar text false
  else if beginsPlain inFlow ch rest then s.plainText
  else refuse

/-- Reads the rest of the text. -/
def readAll : Nat → Lexer → Fallible Lexer
  | 0, _ => refuse
  | fuel + 1, s => do
    let s := skipToToken (s.cursor.rest.length + 1) s
    let s ← s.expireKeys
    let s := s.unwind s.cursor.column
    match s.cursor.rest with
    | [] => (s.unwind (-1)).removeKey
    | ch :: rest => readAll fuel (← s.nextToken ch rest)

end Lexer

/-- The text without a byte order mark at its begin. -/
def withoutMark : List Char → List Char
  | '\uFEFF' :: cs => cs
  | cs => cs

/-- The tokens of a text. -/
def tokens (document : String) : Fallible (List Token) := do
  let cs := document.toList
  if !cs.all isAllowed then refuse
  let start : Lexer := { cursor := { rest := withoutMark cs } }
  let s ← Lexer.readAll (cs.length + 1) start
  return s.tokens.reverse

end Reflash.Yaml
