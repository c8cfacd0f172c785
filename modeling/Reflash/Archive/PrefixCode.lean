import Reflash.Archive.Bits

set_option autoImplicit false

/-! # Prefix codes

A prefix code is a tree whose ends are symbols; a symbol is read by going down from the root, one
branch for each bit. The lengths of the codes alone determine the tree: at each depth the symbols
whose code ends there come first, in order, and behind them the branches whose two sides are one
level deeper (`PrefixCode.nodesFrom`). -/

namespace Reflash.Archive

/-- A prefix code, or a part of one. -/
inductive PrefixCode where
  | unused
  | symbol (n : Nat)
  | branch (zero one : PrefixCode)
deriving Repr, Inhabited

namespace PrefixCode

/-- The nodes of a level that branch to the nodes one level deeper. -/
def pairs : List PrefixCode → List PrefixCode
  | zero :: one :: rest => .branch zero one :: pairs rest
  | [zero] => [.branch zero .unused]
  | [] => []

/-- The symbols whose codes have a given length, in order. -/
def symbolsOf (lengths : List Nat) (length : Nat) : List PrefixCode :=
  lengths.zipIdx.filterMap fun (l, n) => if l = length then some (.symbol n) else none

/-- The nodes at `depth`, for codes that go at most `more` levels deeper. -/
def nodesFrom (lengths : List Nat) (depth : Nat) : Nat → List PrefixCode
  | 0 => symbolsOf lengths depth
  | more + 1 => symbolsOf lengths depth ++ pairs (nodesFrom lengths (depth + 1) more)

/-- The longest length of a code. -/
def longest : Nat := 15

/-- The code in which the `n`th symbol has the `n`th length, and none if that is zero. Too many
short codes make no code. -/
def ofLengths? (lengths : List Nat) : Option PrefixCode :=
  match pairs (nodesFrom lengths 1 (longest - 1)) with
  | [] => some .unused
  | [root] => some root
  | _ => none

/-- The symbol that the next bits stand for. -/
def read : PrefixCode → Bits → Option (Nat × Bits)
  | .unused, _ => none
  | .symbol n, r => some (n, r)
  | .branch zero one, r =>
    match r.bit with
    | none => none
    | some (0, r) => read zero r
    | some (_, r) => read one r

end PrefixCode

end Reflash.Archive
