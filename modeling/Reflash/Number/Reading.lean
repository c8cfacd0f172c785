import Reflash.Number.Text
import Reflash.Text.Digit

set_option autoImplicit false

/-! # Numbers in typed texts

The notations that people type, which are wider than those of any document: blanks around the
number, digits of every script, single underscores between digits, and names for what is not
finite. -/

namespace Reflash.Number

open Reflash.Text

/-! ## Whole numbers of a base -/

/-- The value of a digit below `base`. -/
def digitIn? (base : Nat) (c : Char) : Option Nat :=
  let n := c.toNat
  let value :=
    if 65 ≤ n && n ≤ 90 then some (n - 55)
    else if 97 ≤ n && n ≤ 122 then some (n - 87)
    else digitValue? c
  value.filter (· < base)

/-- The number that digits denote on top of the value `acc` of what stands before. -/
def digitsIn? (base acc : Nat) : List Char → Option Nat
  | [] => some acc
  | c :: cs => (digitIn? base c).bind fun d => digitsIn? base (base * acc + d) cs

/-- The number that digits denote, with the mark of the base before them or without. -/
def magnitudeIn? (base : Nat) (mark : Char) (cs : List Char) : Option Nat :=
  let digits :=
    match cs with
    | '0' :: m :: rest => if m.toLower = mark then rest else cs
    | cs => cs
  if digits.isEmpty then none else digitsIn? base 0 digits

/-- The whole number of a base that a text denotes, with a sign and blanks around it allowed. -/
def wholeIn? (base : Nat) (mark : Char) (cs : List Char) : Option Int :=
  match trimList cs with
  | '+' :: cs => (magnitudeIn? base mark cs).map Int.ofNat
  | '-' :: cs => (magnitudeIn? base mark cs).map fun n => -Int.ofNat n
  | cs => (magnitudeIn? base mark cs).map Int.ofNat

/-! ## Floating-point numbers -/

/-- The decimal digit of ASCII that a digit of any script equals; any other character is kept. -/
def asciiDigit (c : Char) : Char :=
  match digitValue? c with
  | some d => Char.ofNat (48 + d)
  | none => c

/-- The characters without the underscores that stand between two digits; any other underscore
is kept. The flag says whether a digit stands before. -/
def withoutGroups (afterDigit : Bool) : List Char → List Char
  | '_' :: c :: cs =>
    if afterDigit && c.isDigit then c :: withoutGroups true cs
    else '_' :: withoutGroups false (c :: cs)
  | c :: cs => c :: withoutGroups c.isDigit cs
  | [] => []

/-- The exponent behind the digits of a number: nothing, or a mark, an optional sign and
digits. -/
def exponentOf? : List Char → Option Int
  | [] => some 0
  | e :: cs =>
    if e = 'e' || e = 'E' then
      let (negative, digits) :=
        match cs with
        | '+' :: rest => (false, rest)
        | '-' :: rest => (true, rest)
        | rest => (false, rest)
      if digits.isEmpty then none
      else (digitsIn? 10 0 digits).map fun n => if negative then -Int.ofNat n else Int.ofNat n
    else none

/-- The number that digits with an optional fraction and an optional exponent denote. -/
def decimalOf? (negative : Bool) (cs : List Char) : Option Float :=
  let whole := cs.takeWhile Char.isDigit
  let (fraction, rest) :=
    match cs.dropWhile Char.isDigit with
    | '.' :: rest => (rest.takeWhile Char.isDigit, rest.dropWhile Char.isDigit)
    | rest => ([], rest)
  if whole.isEmpty && fraction.isEmpty then none
  else do
    let mantissa ← digitsIn? 10 0 (whole ++ fraction)
    let exponent ← exponentOf? rest
    return ofDecimal negative mantissa (exponent - fraction.length)

/-- The magnitude of a number with its sign put before. -/
def signed (negative : Bool) (cs : List Char) : Option Float :=
  let name := String.ofList (cs.map Char.toLower)
  if name = "inf" || name = "infinity" then
    some (if negative then -(1.0 / 0.0) else 1.0 / 0.0)
  else if name = "nan" then some (0.0 / 0.0)
  else decimalOf? negative cs

/-- The floating-point number that a text denotes. -/
def real? (cs : List Char) : Option Float :=
  match withoutGroups false ((trimList cs).map asciiDigit) with
  | '+' :: cs => signed false cs
  | '-' :: cs => signed true cs
  | cs => signed false cs

end Reflash.Number
