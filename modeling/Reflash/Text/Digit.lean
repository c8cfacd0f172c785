import Reflash.Text.Blank
import Reflash.Text.Ranges
import Reflash.Text.Search

set_option autoImplicit false

/-! # Decimal digits of every script

A whole number may be typed in the digits of any script. `isDigit` is the wider class: it also
holds superscripts and circled digits, which look like digits but have no place value, so a text
of digits need not be a number (`number?`). -/

namespace Reflash.Text

/-- The zeros of the scripts that have decimal digits; the other nine follow each of them. -/
def digitZeros : Array Nat := #[
  48, 1632, 1776, 1984, 2406, 2534, 2662, 2790, 2918, 3046, 3174, 3302, 3430, 3558, 3664, 3792,
  3872, 4160, 4240, 6112, 6160, 6470, 6608, 6784, 6800, 6992, 7088, 7232, 7248, 42528, 43216,
  43264, 43472, 43504, 43600, 44016, 65296, 66720, 68912, 69734, 69872, 69942, 70096, 70384,
  70736, 70864, 71248, 71360, 71472, 71904, 72016, 72784, 73040, 73120, 92768, 92864, 93008,
  120782, 120792, 120802, 120812, 120822, 123200, 123632, 125264, 130032]

/-- Digits without a place value: superscripts, subscripts, circled and counting-rod digits. -/
def placelessDigits : Array (Nat × Nat) := #[
  (178, 179), (185, 185), (4969, 4977), (6618, 6618), (8304, 8304), (8308, 8313), (8320, 8329),
  (9312, 9320), (9332, 9340), (9352, 9360), (9450, 9450), (9461, 9469), (9471, 9471),
  (10102, 10110), (10112, 10120), (10122, 10130), (68160, 68163), (69216, 69224), (69714, 69722),
  (127232, 127242)]

/-- The value of a decimal digit of any script. -/
def digitValue? (c : Char) : Option Nat :=
  if c.toNat < 128 then
    if 48 ≤ c.toNat && c.toNat ≤ 57 then some (c.toNat - 48) else none
  else
    (digitZeros.find? fun z => z ≤ c.toNat && c.toNat ≤ z + 9).map (c.toNat - ·)

/-- Whether `c` counts as a digit. -/
def isDigit (c : Char) : Bool :=
  (digitValue? c).isSome || inRanges placelessDigits c.toNat

/-- Whether a text is not empty and holds digits only. -/
def allDigits (s : String) : Bool :=
  !s.isEmpty && s.toList.all isDigit

/-- The number that a list of digits denotes on top of the value `acc` of what stands before. -/
def digitsValue? (acc : Nat) : List Char → Option Nat
  | [] => some acc
  | c :: cs => (digitValue? c).bind fun d => digitsValue? (10 * acc + d) cs

/-- The most digits of a whole number that is read or written in decimal notation. -/
def mostDigits : Nat := 4300

/-- Whether a number has at most `d` digits in decimal notation. -/
def fitsDigits : Nat → Nat → Bool
  | 0, n => n == 0
  | d + 1, n => if n < 10 then true else fitsDigits d (n / 10)

/-- The number that a text of decimal digits denotes; very long ones are refused. -/
def number? (s : String) : Option Nat :=
  if s.isEmpty || mostDigits < s.length then none else digitsValue? 0 s.toList

/-- The number that decimal digits denote which may have single underscores between them. -/
def grouped? (cs : List Char) : Option Nat :=
  let parts := splitList '_' cs
  let digits := parts.flatten
  if parts.any List.isEmpty || mostDigits < digits.length then none else digitsValue? 0 digits

/-- The whole number that a text denotes, with a sign and blanks around it allowed. -/
def integer? (s : String) : Option Int :=
  match trimList s.toList with
  | '+' :: cs => (grouped? cs).map Int.ofNat
  | '-' :: cs => (grouped? cs).map fun n => -Int.ofNat n
  | cs => (grouped? cs).map Int.ofNat

end Reflash.Text
