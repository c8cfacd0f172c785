set_option autoImplicit false

/-! # Text from bytes

Text that comes from a file or a program: its bytes must be UTF-8, and every kind of line end
counts as a newline. -/

namespace Reflash.Text

/-- The characters of a text with every kind of line end as a newline. -/
def withNewlines : List Char → List Char
  | '\r' :: '\n' :: cs => '\n' :: withNewlines cs
  | '\r' :: cs => '\n' :: withNewlines cs
  | c :: cs => c :: withNewlines cs
  | [] => []

/-- The text that bytes encode, if they encode one. -/
def ofBytes? (bytes : ByteArray) : Option String :=
  (String.fromUTF8? bytes).map fun s => String.ofList (withNewlines s.toList)

end Reflash.Text
