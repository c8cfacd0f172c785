import Reflash.Document.Yaml.Cursor

set_option autoImplicit false

/-! # Tokens of a YAML text -/

namespace Reflash.Yaml

/-- A tag as it is written: a handle, unless it is written out, and the rest. -/
structure TagText where
  handle : Option String
  suffix : String
deriving Repr, DecidableEq

/-- What a directive says. -/
inductive Directive where
  | version (major : Nat)
  | handle (name target : String)
  | other
deriving Repr, DecidableEq

/-- A token. Where indentation begins or ends a collection, there is a token for it. -/
inductive Token where
  | directive (d : Directive)
  | documentStart
  | documentEnd
  | blockSequence
  | blockMapping
  | blockEnd
  | flowSequence
  | flowSequenceEnd
  | flowMapping
  | flowMappingEnd
  | entry
  | flowEntry
  | key
  | value
  | alias (name : String)
  | anchor (name : String)
  | tag (text : TagText)
  | scalar (text : String) (plain : Bool)
deriving Repr, DecidableEq

end Reflash.Yaml
