set_option autoImplicit false

/-! # The parts of a floating-point number

A finite number is `± m · 2 ^ q` with natural `m`; comparison with whole numbers and printing
work on these parts in exact arithmetic. -/

namespace Reflash.Number

/-- What a 64-bit floating-point number denotes. -/
inductive Binary64 where
  | nan
  | infinite (negative : Bool)
  | finite (negative : Bool) (m : Nat) (q : Int)
deriving Repr, DecidableEq

/-- The parts of `x`, read off its bits. -/
def Binary64.ofFloat (x : Float) : Binary64 :=
  let bits := x.toBits.toNat
  let negative := bits / Nat.pow 2 63 == 1
  let exponent : Nat := bits / Nat.pow 2 52 % Nat.pow 2 11
  let fraction : Nat := bits % Nat.pow 2 52
  if exponent == 2047 then
    if fraction == 0 then .infinite negative else .nan
  else if exponent == 0 then .finite negative fraction (-1074)
  else .finite negative (Nat.pow 2 52 + fraction) ((exponent : Int) - 1075)

/-- The whole number that `± m · 2 ^ q` is, if it is one. -/
def wholePart? (negative : Bool) (m : Nat) (q : Int) : Option Int :=
  let magnitude : Option Nat :=
    if 0 ≤ q then some (m * Nat.pow 2 q.toNat)
    else if m % Nat.pow 2 q.natAbs == 0 then some (m / Nat.pow 2 q.natAbs) else none
  magnitude.map fun n => if negative then -(n : Int) else n

/-- Whether the floating-point number `x` is exactly the whole number `i`. -/
def isWhole (x : Float) (i : Int) : Bool :=
  match Binary64.ofFloat x with
  | .finite negative m q => wholePart? negative m q == some i
  | _ => false

/-- The whole number left when the fraction of `± m · 2 ^ q` is dropped. -/
def truncateParts (negative : Bool) (m : Nat) (q : Int) : Int :=
  let n : Nat := if 0 ≤ q then m * Nat.pow 2 q.toNat else m / Nat.pow 2 q.natAbs
  if negative then -(n : Int) else n

/-- The whole number nearest to `± m · 2 ^ q`; a half goes to the even neighbour. -/
def roundParts (negative : Bool) (m : Nat) (q : Int) : Int :=
  let n : Nat :=
    if 0 ≤ q then m * Nat.pow 2 q.toNat
    else
      let unit := Nat.pow 2 q.natAbs
      let floor := m / unit
      let twice := 2 * (m % unit)
      if twice < unit then floor
      else if unit < twice then floor + 1
      else if floor % 2 == 0 then floor else floor + 1
  if negative then -(n : Int) else n

/-- Whether `x < i`, exactly. -/
def ltWhole (x : Float) (i : Int) : Bool :=
  match Binary64.ofFloat x with
  | .nan => false
  | .infinite negative => negative
  | .finite negative m q =>
    let signed : Int := if negative then -(m : Int) else m
    if 0 ≤ q then signed * Nat.pow 2 q.toNat < i else signed < i * Nat.pow 2 q.natAbs

/-- Whether `i < x`, exactly. -/
def wholeLt (i : Int) (x : Float) : Bool :=
  match Binary64.ofFloat x with
  | .nan => false
  | .infinite negative => !negative
  | .finite negative m q =>
    let signed : Int := if negative then -(m : Int) else m
    if 0 ≤ q then i < signed * Nat.pow 2 q.toNat else i * Nat.pow 2 q.natAbs < signed

/-- The number nearest to `a / b`, for positive `b`. The quotient is cut off behind more bits than
the format keeps, and what was cut off is remembered in a last bit, so rounding once is exact. -/
def quotient (a b : Nat) : Float :=
  if a = 0 then 0.0
  else
    let shift := 64 + b.log2 - a.log2
    let scaled := a * Nat.pow 2 shift
    let kept := 2 * (scaled / b) + (if scaled % b = 0 then 0 else 1)
    (Float.ofNat kept).scaleB (-(shift : Int) - 1)

end Reflash.Number
