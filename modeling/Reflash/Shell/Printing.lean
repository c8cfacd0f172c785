set_option autoImplicit false

/-! # What scripts print

Texts to print may hold escapes behind a backslash, and a format may hold places for arguments. A
format is used again as long as arguments are left. -/

namespace Reflash.Shell

/-- The bytes of characters. -/
def bytesOf (cs : List Char) : List UInt8 := (String.ofList cs).toUTF8.toList

/-- The value of at most `most` octal digits, and the rest. -/
def octal (most acc : Nat) : List Char → Nat × List Char
  | [] => (acc, [])
  | c :: cs =>
    match most with
    | 0 => (acc, c :: cs)
    | most + 1 =>
      if '0' ≤ c && c ≤ '7' then octal most (8 * acc + (c.toNat - 48)) cs else (acc, c :: cs)

/-- The character that a letter behind a backslash stands for. -/
def escape? : Char → Option Char
  | 'a' => some '\x07'
  | 'b' => some '\x08'
  | 'f' => some '\x0c'
  | 'n' => some '\n'
  | 'r' => some '\r'
  | 't' => some '\t'
  | 'v' => some '\x0b'
  | '\\' => some '\\'
  | _ => none

/-- The bytes of a text with its escapes carried out. With `zero`, a zero must stand before the
digits of a byte. The flag says whether the text was cut off by its mark for the end. -/
def escaped (zero : Bool) : Nat → List Char → List UInt8 × Bool
  | 0, _ => ([], false)
  | fuel + 1, cs =>
    let on (bytes : List UInt8) (rest : List Char) : List UInt8 × Bool :=
      let (more, cut) := escaped zero fuel rest
      (bytes ++ more, cut)
    match cs with
    | [] => ([], false)
    | '\\' :: 'c' :: _ => ([], true)
    | '\\' :: '0' :: rest =>
      let (n, rest) := octal (if zero then 3 else 2) 0 rest
      on [UInt8.ofNat n] rest
    | '\\' :: c :: rest =>
      match escape? c with
      | some e => on (bytesOf [e]) rest
      | none =>
        if !zero && '1' ≤ c && c ≤ '7' then
          let (n, rest) := octal 3 0 (c :: rest)
          on [UInt8.ofNat n] rest
        else on (bytesOf ['\\', c]) rest
    | c :: rest => on (bytesOf [c]) rest

/-- The bytes of arguments with blanks between them, and a newline behind them unless the first
argument says otherwise. -/
def echoed (args : List (List Char)) : List UInt8 :=
  let (bare, args) := match args with
    | ['-', 'n'] :: rest => (true, rest)
    | args => (false, args)
  let line := [' '].intercalate args
  let (bytes, cut) := escaped true (line.length + 1) line
  bytes ++ (if bare || cut then [] else bytesOf ['\n'])

/-- The bytes of one pass over a format, and the arguments that are left. -/
def formatted : Nat → List Char → List (List Char) → List UInt8 × List (List Char)
  | 0, _, args => ([], args)
  | fuel + 1, cs, args =>
    let on (bytes : List UInt8) (rest : List Char) (args : List (List Char)) :
        List UInt8 × List (List Char) :=
      let (more, args) := formatted fuel rest args
      (bytes ++ more, args)
    match cs with
    | [] => ([], args)
    | '%' :: '%' :: rest => on (bytesOf ['%']) rest args
    | '%' :: 's' :: rest => on (bytesOf (args.headD [])) rest args.tail
    | '%' :: 'd' :: rest =>
      let n := ((String.ofList (args.headD [])).toInt?).getD 0
      on (bytesOf (toString n).toList) rest args.tail
    | '%' :: 'b' :: rest =>
      on (escaped true ((args.headD []).length + 1) (args.headD [])).1 rest args.tail
    | '\\' :: c :: rest =>
      if '0' ≤ c && c ≤ '7' then
        let (n, rest) := octal 3 0 (c :: rest)
        on [UInt8.ofNat n] rest args
      else
        match escape? c with
        | some e => on (bytesOf [e]) rest args
        | none => on (bytesOf ['\\', c]) rest args
    | c :: rest => on (bytesOf [c]) rest args

/-- The bytes of a format that is used until no arguments are left; a pass that takes no argument
is the last one. -/
def printed (format : List Char) : Nat → List (List Char) → List UInt8
  | 0, _ => []
  | fuel + 1, args =>
    let (bytes, left) := formatted (format.length + 1) format args
    if left.isEmpty || left.length = args.length then bytes else bytes ++ printed format fuel left

end Reflash.Shell
