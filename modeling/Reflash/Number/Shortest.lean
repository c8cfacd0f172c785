import Reflash.Number.Binary64

set_option autoImplicit false

/-! # The shortest decimal

The fewest digits that read back as the same number, and of those the nearest. For each count of
digits the number lies between two neighbours of a decimal grid; the first grid with a neighbour
in the interval of reals that round to the number is taken. -/

namespace Reflash.Number

/-- A decimal `digits · 10 ^ exponent`. -/
structure Decimal where
  digits : Nat
  exponent : Int
deriving Repr, DecidableEq

/-- The reals that round to a number: the ends in units of `1 / den`, which belong to it or not. -/
structure Interval where
  value : Nat
  low : Nat
  high : Nat
  den : Nat
  closed : Bool

/-- The interval of `m · 2 ^ q`. Below a power of two the next number is half as far away. -/
def Interval.around (m : Nat) (q : Int) : Interval :=
  let scale := if 0 ≤ q then Nat.pow 2 q.toNat else 1
  let below := if m = Nat.pow 2 52 && -1074 < q then 1 else 2
  { value := 4 * m * scale
    low := (4 * m - below) * scale
    high := (4 * m + 2) * scale
    den := 4 * (if 0 ≤ q then 1 else Nat.pow 2 q.natAbs)
    closed := m % 2 == 0 }

/-- Whether `n / den'` lies in the interval, when the interval is written in units of `1 / den'`
as well. -/
def Interval.holds (i : Interval) (n : Nat) : Bool :=
  if i.closed then i.low ≤ n && n ≤ i.high else i.low < n && n < i.high

/-- The exponent of the leading decimal digit of `num / den`. -/
def leadingExponent (num den : Nat) : Int :=
  if den ≤ num then ((Nat.toDigits 10 (num / den)).length : Int) - 1
  else
    let places := (Nat.toDigits 10 (den / num)).length
    if den ≤ num * Nat.pow 10 (places - 1) then -((places : Int) - 1) else -(places : Int)

/-- The neighbours of the number on the grid of multiples of `10 ^ exponent` that read back. -/
def Interval.onGrid? (i : Interval) (exponent : Int) : Option Nat :=
  let up := if exponent < 0 then Nat.pow 10 exponent.natAbs else 1
  let unit := i.den * (if exponent < 0 then 1 else Nat.pow 10 exponent.toNat)
  let value := i.value * up
  let scaled : Interval := { i with low := i.low * up, high := i.high * up, value, den := unit }
  let floor := value / unit
  let lowFits := scaled.holds (floor * unit)
  let highFits := scaled.holds ((floor + 1) * unit)
  match lowFits, highFits with
  | true, false => some floor
  | false, true => some (floor + 1)
  | false, false => none
  | true, true =>
    let rest := 2 * (value % unit)
    if rest < unit then some floor
    else if unit < rest then some (floor + 1)
    else if floor % 2 == 0 then some floor else some (floor + 1)

/-- The first grid, counted from `count` digits on, that has a number to read back. -/
def Interval.search (i : Interval) (leading : Int) : Nat → Nat → Decimal
  | 0, _ => ⟨0, 0⟩
  | tries + 1, count =>
    let exponent := leading - (count : Int) + 1
    match i.onGrid? exponent with
    | some digits => ⟨digits, exponent⟩
    | none => i.search leading tries (count + 1)

/-- Drops the zeros at the end of the digits. -/
def Decimal.strip : Nat → Decimal → Decimal
  | 0, d => d
  | tries + 1, d =>
    if d.digits != 0 && d.digits % 10 == 0 then
      Decimal.strip tries ⟨d.digits / 10, d.exponent + 1⟩
    else d

/-- The shortest decimal that reads back as `m · 2 ^ q`. Seventeen digits are always enough. -/
def shortest (m : Nat) (q : Int) : Decimal :=
  if m = 0 then ⟨0, 0⟩
  else
    let i := Interval.around m q
    (i.search (leadingExponent i.value i.den) 18 1).strip 20

end Reflash.Number
