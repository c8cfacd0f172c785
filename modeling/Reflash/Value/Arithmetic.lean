import Reflash.Fault

set_option autoImplicit false

/-! # Arithmetic on reported values

Tools report fractions and speeds as values of any type. A percentage is a hundred times the
fraction, which for a text or a list is a hundred copies of it. -/

namespace Reflash

open Reflash.Number

namespace Value

/-- `count` copies of a list, one after the other. -/
def copies {α : Type} (count : Nat) (xs : List α) : List α :=
  (List.replicate count xs).flatten

/-- A hundred times a value, if that exists. -/
def hundredfold? : Value → Option Value
  | .bool b => some (.int (if b then 100 else 0))
  | .int i => some (.int (i * 100))
  | .float x => some (.float (x * 100.0))
  | .minusNaN => some .minusNaN
  | .str s => some (.str (String.ofList (copies 100 s.toList)))
  | .bytes bs => some (.bytes (copies 100 bs))
  | .list xs => some (.list (copies 100 xs))
  | .tuple xs => some (.tuple (copies 100 xs))
  | _ => none

/-- A whole number of hundredths as a floating-point number. -/
def hundredths (i : Int) : Fallible Value :=
  let x := ofDecimal (i < 0) i.natAbs (-2)
  match Binary64.ofFloat x with
  | .finite .. => .ok (.float x)
  | _ => .error .overflow

/-- A number rounded to two places. -/
def roundHundredths : Value → Fallible Value
  | .bool b => hundredths (if b then 100 else 0)
  | .int i => hundredths (i * 100)
  | .float x =>
    match Binary64.ofFloat (x * 100.0) with
    | .nan => .error (.invalid "cannot convert float NaN to integer")
    | .infinite _ => .error .overflow
    | .finite negative m q => hundredths (roundParts negative m q)
  | .minusNaN => .error (.invalid "cannot convert float NaN to integer")
  | _ => .error .mistyped

end Value

end Reflash
