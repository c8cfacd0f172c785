import Reflash.Number.Text
import Reflash.Text.Digit
import Reflash.Value.Equality
import Reflash.Fault

set_option autoImplicit false

/-! # Reading JSON documents

A document is one value with blanks around it. Beside the standard's forms, the names of the
numbers that are not finite are read. A number without fraction and exponent is whole; a key that
occurs twice keeps its first place and its last value.

The readers get the rest of the text and return what they leave of it. Nesting costs one unit of
depth, and `read` supplies as many units as the text has characters, so they never run out. -/

namespace Reflash.Json

/-- What is left of the text after a part of it was read. -/
abbrev Reader (α : Type) := List Char → Fallible (α × List Char)

/-- The failure of every text that is no document. -/
def refuse {α : Type} : Fallible α := .error (.malformed .json)

/-- Whether `c` may stand between the parts of a document. -/
def isSpace (c : Char) : Bool :=
  c == ' ' || c == '\t' || c == '\n' || c == '\r'

/-- The text from its first character that is no space on. -/
def skipSpace (cs : List Char) : List Char := cs.dropWhile isSpace

/-! ## Text -/

/-- The value of a hexadecimal digit. -/
def hexValue? (c : Char) : Option Nat :=
  let n := c.toNat
  if 48 ≤ n && n ≤ 57 then some (n - 48)
  else if 65 ≤ n && n ≤ 70 then some (n - 55)
  else if 97 ≤ n && n ≤ 102 then some (n - 87)
  else none

/-- The value of a run of hexadecimal digits; nothing if one of them is none. -/
def hexNumber? (cs : List Char) : Option Nat :=
  cs.foldl (fun acc c => acc.bind fun n => (hexValue? c).map (16 * n + ·)) (some 0)

/-- The code unit that four hexadecimal digits denote. -/
def codeUnit? : List Char → Option (Nat × List Char)
  | a :: b :: c :: d :: rest => (hexNumber? [a, b, c, d]).map (·, rest)
  | _ => none

/-- The character that a `\u` escape denotes; two escapes may form a pair. -/
def escapedUnit : Reader Char := fun cs =>
  match codeUnit? cs with
  | none => refuse
  | some (high, rest) =>
    if 0xD800 ≤ high && high < 0xDC00 then
      match rest with
      | '\\' :: 'u' :: rest' =>
        match codeUnit? rest' with
        | some (low, rest'') =>
          if 0xDC00 ≤ low && low < 0xE000 then
            .ok (Char.ofNat (0x10000 + (high - 0xD800) * 0x400 + (low - 0xDC00)), rest'')
          else .ok ('\uFFFD', rest)
        | none => refuse
      | _ => .ok ('\uFFFD', rest)
    else .ok (if 0xDC00 ≤ high && high < 0xE000 then '\uFFFD' else Char.ofNat high, rest)

/-- The character that an escape other than `\u` denotes. -/
def escape? : Char → Option Char
  | '"' => some '"'
  | '\\' => some '\\'
  | '/' => some '/'
  | 'b' => some '\x08'
  | 'f' => some '\x0c'
  | 'n' => some '\n'
  | 'r' => some '\r'
  | 't' => some '\t'
  | _ => none

/-- The rest of a text up to its closing quote, after the characters in `acc`, last one first. -/
def textFrom : Nat → List Char → Reader String
  | _, acc, '"' :: rest => .ok (String.ofList acc.reverse, rest)
  | fuel + 1, acc, '\\' :: 'u' :: cs => do
    let (c, rest) ← escapedUnit cs
    textFrom fuel (c :: acc) rest
  | fuel + 1, acc, '\\' :: c :: cs =>
    match escape? c with
    | some c => textFrom fuel (c :: acc) cs
    | none => refuse
  | fuel + 1, acc, c :: cs =>
    if c.toNat < 32 || c == '\\' then refuse else textFrom fuel (c :: acc) cs
  | _, _, _ => refuse

/-- A text, from behind its opening quote on. -/
def text : Reader String := fun cs => textFrom cs.length [] cs

/-! ## Numbers -/

/-- The number that decimal digits denote. -/
def decimal (digits : List Char) : Nat :=
  digits.foldl (fun n c => 10 * n + (c.toNat - 48)) 0

/-- A fraction, if one follows: its digits. -/
def fraction (cs : List Char) : List Char × List Char :=
  match cs with
  | '.' :: rest =>
    let digits := rest.takeWhile Char.isDigit
    if digits.isEmpty then ([], cs) else (digits, rest.dropWhile Char.isDigit)
  | _ => ([], cs)

/-- An exponent, if one follows. -/
def exponent? (cs : List Char) : Option (Int × List Char) :=
  match cs with
  | c :: rest =>
    if c == 'e' || c == 'E' then
      let (negative, rest) :=
        match rest with
        | '+' :: rest => (false, rest)
        | '-' :: rest => (true, rest)
        | rest => (false, rest)
      let digits := rest.takeWhile Char.isDigit
      if digits.isEmpty then none
      else
        let n : Int := decimal digits
        some (if negative then -n else n, rest.dropWhile Char.isDigit)
    else none
  | [] => none

/-- A number without its sign. -/
def magnitude (negative : Bool) : Reader Value := fun cs =>
  let whole := match cs with
    | '0' :: _ => ['0']
    | cs => cs.takeWhile Char.isDigit
  if whole.isEmpty then refuse
  else
    let (frac, rest) := fraction (cs.drop whole.length)
    let exponent := exponent? rest
    if frac.isEmpty && exponent.isNone then
      if Text.mostDigits < whole.length then .error .notNumber
      else
        let n : Int := decimal whole
        .ok (.int (if negative then -n else n), rest)
    else
      let (e, rest) := exponent.getD (0, rest)
      .ok (.float (Number.ofDecimal negative (decimal (whole ++ frac)) (e - frac.length)), rest)

/-- A number that starts with a minus sign or a digit, or the name of one that is not finite. -/
def number : Reader Value
  | '-' :: 'I' :: 'n' :: 'f' :: 'i' :: 'n' :: 'i' :: 't' :: 'y' :: rest =>
    .ok (.float (-(1.0 / 0.0)), rest)
  | 'I' :: 'n' :: 'f' :: 'i' :: 'n' :: 'i' :: 't' :: 'y' :: rest => .ok (.float (1.0 / 0.0), rest)
  | 'N' :: 'a' :: 'N' :: rest => .ok (.float (0.0 / 0.0), rest)
  | '-' :: cs => magnitude true cs
  | cs => magnitude false cs

/-! ## Values -/

mutual

/-- A value that starts with the first character. -/
def value : Nat → Reader Value
  | 0, _ => refuse
  | depth + 1, cs =>
    match cs with
    | '"' :: cs => do
      let (s, rest) ← text cs
      return (.str s, rest)
    | '[' :: cs =>
      match skipSpace cs with
      | ']' :: rest => .ok (.list [], rest)
      | cs => do
        let (vs, rest) ← elements depth cs
        return (.list vs, rest)
    | '\x7b' :: cs =>
      match skipSpace cs with
      | '\x7d' :: rest => .ok (.mapping [], rest)
      | cs => do
        let (es, rest) ← members depth cs
        return (.mapping (Entries.ofPairs es), rest)
    | 'n' :: 'u' :: 'l' :: 'l' :: rest => .ok (.null, rest)
    | 't' :: 'r' :: 'u' :: 'e' :: rest => .ok (.bool true, rest)
    | 'f' :: 'a' :: 'l' :: 's' :: 'e' :: rest => .ok (.bool false, rest)
    | cs => number cs

/-- The elements of a list from the first one on, up to the closing bracket. -/
def elements : Nat → Reader (List Value)
  | 0, _ => refuse
  | depth + 1, cs => do
    let (v, rest) ← value depth cs
    match skipSpace rest with
    | ',' :: rest =>
      let (vs, rest) ← elements depth (skipSpace rest)
      return (v :: vs, rest)
    | ']' :: rest => return ([v], rest)
    | _ => refuse

/-- The entries of a mapping from the first key on, up to the closing brace. -/
def members : Nat → Reader (List (Value × Value))
  | 0, _ => refuse
  | depth + 1, cs =>
    match cs with
    | '"' :: cs => do
      let (key, rest) ← text cs
      match skipSpace rest with
      | ':' :: rest =>
        let (v, rest) ← value depth (skipSpace rest)
        match skipSpace rest with
        | ',' :: rest =>
          let (es, rest) ← members depth (skipSpace rest)
          return ((.str key, v) :: es, rest)
        | '\x7d' :: rest => return ([(.str key, v)], rest)
        | _ => refuse
      | _ => refuse
    | _ => refuse

end

/-- The value of a document. -/
def read (document : String) : Fallible Value := do
  let cs := document.toList
  let (v, rest) ← value (cs.length + 1) (skipSpace cs)
  if (skipSpace rest).isEmpty then return v else refuse

end Reflash.Json
