import Reflash.Number.Shortest

set_option autoImplicit false

/-! # Numbers as text and from text -/

namespace Reflash.Number

/-- How a floating-point number is laid out: which exponents of the leading digit are written
positionally, the least digits of a written exponent, and the names of what is not finite. -/
structure Layout where
  leastPositional : Int := -4
  mostPositional : Int := 15
  exponentDigits : Nat := 2
  infinity : String
  nan : String

/-- In messages and records. -/
def plainLayout : Layout := { infinity := "inf", nan := "nan" }

/-- In documents. -/
def documentLayout : Layout := { infinity := "Infinity", nan := "NaN" }

/-- A natural number with at least `width` digits. -/
def padded (width n : Nat) : String :=
  let digits := toString n
  String.ofList (List.replicate (width - digits.length) '0') ++ digits

/-- The digits of a decimal with a point or an exponent, as the layout says. A number that is
written positionally shows a fraction, be it `.0`. -/
def Decimal.text (layout : Layout) (d : Decimal) : String :=
  let digits := (toString d.digits).toList
  let leading := d.exponent + digits.length - 1
  if layout.leastPositional ≤ leading && leading ≤ layout.mostPositional then
    if leading < 0 then
      "0." ++ String.ofList (List.replicate (leading.natAbs - 1) '0' ++ digits)
    else
      let whole := leading.toNat + 1
      let zeros := List.replicate (whole - digits.length) '0'
      let fraction := digits.drop whole
      String.ofList (digits.take whole ++ zeros) ++ "." ++
        (if fraction.isEmpty then "0" else String.ofList fraction)
  else
    let fraction := digits.drop 1
    String.ofList (digits.take 1) ++
      (if fraction.isEmpty then "" else "." ++ String.ofList fraction) ++ "e" ++
      (if leading < 0 then "-" else "+") ++ padded layout.exponentDigits leading.natAbs

/-- A floating-point number as text, in the fewest digits that read back. -/
def floatText (layout : Layout) (x : Float) : String :=
  match Binary64.ofFloat x with
  | .nan => layout.nan
  | .infinite negative => (if negative then "-" else "") ++ layout.infinity
  | .finite negative m q => (if negative then "-" else "") ++ (shortest m q).text layout

/-- The number nearest to `mantissa · 10 ^ exponent`. Past the range of the format it is infinite
or zero, which is decided from the number of digits alone. -/
def ofDecimal (negative : Bool) (mantissa : Nat) (exponent : Int) : Float :=
  let leading := exponent + (toString mantissa).length
  let magnitude :=
    if mantissa = 0 then 0.0
    else if 310 < leading then 1.0 / 0.0
    else if leading < -400 then 0.0
    else if exponent < 0 then Float.ofScientific mantissa true exponent.natAbs
    else Float.ofScientific mantissa false exponent.toNat
  if negative then -magnitude else magnitude

/-- The whole number `i` as a floating-point number, unless it is too large. -/
def ofWhole? (i : Int) : Option Float :=
  let x := ofDecimal (i < 0) i.natAbs 0
  match Binary64.ofFloat x with
  | .finite .. => some x
  | _ => none

end Reflash.Number
