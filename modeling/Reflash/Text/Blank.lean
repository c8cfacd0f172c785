set_option autoImplicit false

/-! # Blank characters and trimming

The blanks are those of Unicode together with the four ASCII separators 28 to 31, so that typed
answers and command output are trimmed alike whatever keyboard or tool they come from. -/

namespace Reflash.Text

/-- Whether `c` is dropped at the two ends of a trimmed text. -/
def isBlank (c : Char) : Bool :=
  let n := c.toNat
  (9 ≤ n && n ≤ 13) || (28 ≤ n && n ≤ 32) || n == 133 || n == 160 || n == 5760 ||
    (8192 ≤ n && n ≤ 8202) || n == 8232 || n == 8233 || n == 8239 || n == 8287 || n == 12288

/-- The text without the blanks at its end. -/
def trimEndList (cs : List Char) : List Char :=
  cs.foldr (fun c kept => if kept.isEmpty && isBlank c then [] else c :: kept) []

/-- The text without the blanks at its two ends. -/
def trimList (cs : List Char) : List Char :=
  trimEndList (cs.dropWhile isBlank)

/-- The text without the blanks at its two ends. -/
def trim (s : String) : String :=
  String.ofList (trimList s.toList)

end Reflash.Text
