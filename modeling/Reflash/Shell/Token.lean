set_option autoImplicit false

/-! # The words of a script

A script is cut into words and marks between them. Between single quotes everything stands for
itself; between double quotes and outside of quotes a dollar sign begins a variable and a backslash
takes the meaning from the character behind it. -/

namespace Reflash.Shell

/-- A part of a word. -/
inductive Piece where
  | text (cs : List Char)
  | variable (name : String) (quoted : Bool)
deriving Repr, DecidableEq

/-- A word as it is written. -/
abbrev Word := List Piece

/-- The standard streams that a command writes. -/
inductive Stream where
  | out
  | err
deriving Repr, DecidableEq

/-- What a script is made of. -/
inductive Token where
  | word (w : Word)
  | separator
  | and
  | or
  /-- What one stream gets goes where another one goes. -/
  | join (source target : Stream)
  /-- What one stream gets is dropped. -/
  | discard (source : Stream)
deriving Repr, DecidableEq

/-! ## Variables -/

/-- Whether `c` may stand in the name of a variable. -/
def isNameChar (c : Char) : Bool := c.isAlphanum || c == '_'

/-- The variable behind a dollar sign, and the rest; a dollar sign without one is itself. -/
def variableOf (quoted : Bool) : List Char → Piece × List Char
  | '\x7b' :: cs =>
    (.variable (String.ofList (cs.takeWhile (· != '\x7d'))) quoted,
      (cs.dropWhile (· != '\x7d')).drop 1)
  | c :: cs =>
    if c.isDigit || c == '$' || c == '?' || c == '#' then
      (.variable (String.ofList [c]) quoted, cs)
    else if isNameChar c then
      (.variable (String.ofList (c :: cs.takeWhile isNameChar)) quoted, cs.dropWhile isNameChar)
    else (.text ['$'], c :: cs)
  | [] => (.text ['$'], [])

/-! ## Words -/

/-- The pieces up to the closing double quote, and the rest. -/
def quotedPieces : Nat → List Char → Option (Word × List Char)
  | 0, _ => none
  | fuel + 1, cs =>
    match cs with
    | [] => none
    | '"' :: rest => some ([], rest)
    | '\\' :: '\n' :: rest => quotedPieces fuel rest
    | '\\' :: c :: rest =>
      let piece : Piece := .text (if "$\x60\"\\".toList.contains c then [c] else ['\\', c])
      (quotedPieces fuel rest).map fun (w, rest) => (piece :: w, rest)
    | '$' :: rest =>
      let (piece, rest) := variableOf true rest
      (quotedPieces fuel rest).map fun (w, rest) => (piece :: w, rest)
    | c :: rest => (quotedPieces fuel rest).map fun (w, rest) => (.text [c] :: w, rest)

/-- Whether a word ends before `c`. -/
def endsWord (c : Char) : Bool := " \t\n;&|<>()".toList.contains c

/-- The pieces up to the end of a word, and the rest. -/
def wordPieces : Nat → List Char → Option (Word × List Char)
  | 0, _ => none
  | fuel + 1, cs =>
    match cs with
    | [] => some ([], [])
    | '\'' :: rest =>
      let inside := rest.takeWhile (· != '\'')
      match rest.drop inside.length with
      | _ :: rest =>
        (wordPieces fuel rest).map fun (w, rest) => (.text inside :: w, rest)
      | [] => none
    | '"' :: rest => do
      let (inside, rest) ← quotedPieces fuel rest
      let (w, rest) ← wordPieces fuel rest
      return (.text [] :: inside ++ w, rest)
    | '\\' :: '\n' :: rest => wordPieces fuel rest
    | '\\' :: c :: rest => (wordPieces fuel rest).map fun (w, rest) => (.text [c] :: w, rest)
    | '$' :: rest =>
      let (piece, rest) := variableOf false rest
      (wordPieces fuel rest).map fun (w, rest) => (piece :: w, rest)
    | c :: rest =>
      if endsWord c then some ([], c :: rest)
      else (wordPieces fuel rest).map fun (w, rest) => (.text [c] :: w, rest)

/-! ## Scripts -/

/-- The stream with a number. -/
def streamOf? : Char → Option Stream
  | '1' => some .out
  | '2' => some .err
  | _ => none

/-- Where the stream `source` is sent, from behind the mark on, and the rest. -/
def redirection? (source : Stream) (cs : List Char) : Option (Token × List Char) :=
  match cs with
  | '&' :: c :: rest => (streamOf? c).map fun target => (.join source target, rest)
  | cs =>
    let cs := cs.dropWhile (· == ' ')
    let null := "/dev/null".toList
    if null.isPrefixOf cs then some (.discard source, cs.drop null.length) else none

/-- The tokens of a script; nothing if it is not one of the simple scripts that are known here. -/
def tokens : Nat → List Char → Option (List Token)
  | 0, _ => none
  | fuel + 1, cs =>
    let followed (t : Token) (rest : List Char) : Option (List Token) :=
      (tokens fuel rest).map (t :: ·)
    let word : Option (List Token) :=
      match wordPieces cs.length.succ cs with
      | some ([], _) | none => none
      | some (w, rest) => followed (.word w) rest
    let redirected (source : Stream) (rest : List Char) : Option (List Token) :=
      (redirection? source rest).bind fun (t, rest) => followed t rest
    match cs with
    | [] => some []
    | ' ' :: rest | '\t' :: rest => tokens fuel rest
    | '#' :: rest => tokens fuel (rest.dropWhile (· != '\n'))
    | '\n' :: rest | ';' :: rest => followed .separator rest
    | '&' :: '&' :: rest => followed .and rest
    | '|' :: '|' :: rest => followed .or rest
    | '>' :: rest => redirected .out rest
    | '1' :: '>' :: rest => redirected .out rest
    | '2' :: '>' :: rest => redirected .err rest
    | _ => word

end Reflash.Shell
