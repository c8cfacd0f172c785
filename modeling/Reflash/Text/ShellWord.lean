import Reflash.Text.Search

set_option autoImplicit false

/-! # Command lines as text

A command is logged so that it could be pasted into a shell: a word that a shell would read as
itself stands bare, any other word between single quotes, with each single quote in it written
between double quotes. -/

namespace Reflash.Text

/-- Whether a shell reads `c` as itself outside quotes. -/
def isBareChar (c : Char) : Bool :=
  c.isAlphanum || "_@%+=:,./-".toList.contains c

/-- One word of a command line. -/
def shellWord (word : String) : String :=
  if word.isEmpty then "''"
  else if word.toList.all isBareChar then word
  else "'" ++ replaceChar '\'' "'\"'\"'".toList word ++ "'"

/-- A whole command line. -/
def commandLine (words : List String) : String :=
  " ".intercalate (words.map shellWord)

end Reflash.Text
