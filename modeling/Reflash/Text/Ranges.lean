set_option autoImplicit false

/-! # Sets of code points

A character class is a table of closed ranges of code points. -/

namespace Reflash.Text

/-- Whether `n` lies in one of the closed ranges of `table`. -/
def inRanges (table : Array (Nat × Nat)) (n : Nat) : Bool :=
  table.any fun (lo, hi) => lo ≤ n && n ≤ hi

end Reflash.Text
