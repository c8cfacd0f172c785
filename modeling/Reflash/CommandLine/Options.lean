import Reflash.Document.Yaml.Content
import Reflash.Value.Equality

set_option autoImplicit false

/-! # Options of an installation

An option is given as a variable and a value with an equals sign between them. The value is a YAML
document, so numbers, truth values and lists can be given; an empty value is the empty text. -/

namespace Reflash.Options

/-- The variable and the value that one option gives, where `read` reads values. -/
def parseOne (read : String → Fallible Value) (option : String) : Fallible (Value × Value) :=
  match Text.splitFirst '=' option with
  | none => .error unexpected
  | some ("", _) => .error unexpected
  | some (var, "") => .ok (.str (Text.trim var), .str "")
  | some (var, value) => (read value).map fun v => (.str (Text.trim var), v)
where
  /-- The failure of an option without a variable or an equals sign. -/
  unexpected : Fault := .invalid ("--set expects var=value, got " ++ Text.quoted option)

/-- The variables and values that options give; of those for one variable the last one counts. -/
def parseWith (read : String → Fallible Value) (options : List String) : Fallible Entries :=
  (options.mapM (parseOne read)).map Entries.ofPairs

/-- The variables and values that options give, with their values as YAML documents. -/
def parse : List String → Fallible Entries :=
  parseWith Yaml.read

end Reflash.Options
