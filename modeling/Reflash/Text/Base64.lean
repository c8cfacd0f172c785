set_option autoImplicit false

/-! # Bytes in sixty-four characters

Every four characters of the alphabet stand for three bytes. Characters outside the alphabet are
passed over, and padding ends the text once it completes a group of four. -/

namespace Reflash.Text

/-- The six bits that a character of the alphabet stands for. -/
def sextet? (c : Char) : Option Nat :=
  let n := c.toNat
  if 65 ≤ n && n ≤ 90 then some (n - 65)
  else if 97 ≤ n && n ≤ 122 then some (n - 71)
  else if 48 ≤ n && n ≤ 57 then some (n + 4)
  else if c = '+' then some 62
  else if c = '/' then some 63
  else none

/-- The bytes that `bits` bits, at most twenty-four of them, fill completely. -/
def filledBytes (group bits : Nat) : List UInt8 :=
  (List.range (bits / 8)).map fun i => UInt8.ofNat (group / Nat.pow 2 (bits - 8 * (i + 1)))

/-- The bytes of the rest of a text. `group` holds the bits of the `count` characters of an
unfinished group of four, and `pads` counts the padding directly behind them. -/
def base64From (group count pads : Nat) : List Char → Option (List UInt8)
  | [] => if count = 0 then some [] else none
  | c :: cs =>
    if c = '=' then
      if 2 ≤ count && 4 ≤ count + pads + 1 then some (filledBytes group (6 * count))
      else base64From group count (if 2 ≤ count then pads + 1 else pads) cs
    else
      match sextet? c with
      | none => base64From group count pads cs
      | some bits =>
        let group := 64 * group + bits
        if count = 3 then (base64From 0 0 0 cs).map (filledBytes group 24 ++ ·)
        else base64From group (count + 1) 0 cs

/-- The bytes that a text stands for; nothing if it ends inside a group without its padding. -/
def base64? (cs : List Char) : Option (List UInt8) :=
  base64From 0 0 0 cs

end Reflash.Text
