import Reflash.Value.Equality
import Reflash.Value.Writing

set_option autoImplicit false

/-! # Reading untyped values

Payloads and descriptors come from documents that nothing has checked field by field. These are
the ways in which handlers read them; each says which fault a value of another shape causes. -/

namespace Reflash

namespace Value

/-- The entry under a text key, which must be there. -/
def item (name : String) : Value → Fallible Value
  | .mapping es =>
    match Entries.field? name es with
    | some v => .ok v
    | none => .error (.missingKey (.str name))
  | _ => .error .mistyped

/-- The entry under a text key of a mapping; null if there is none. -/
def optionalItem (name : String) : Value → Fallible Value
  | .mapping es => .ok (Entries.fieldD name es)
  | _ => .error .mistyped

/-- Whether a text is among the keys or the elements, or occurs in the text. -/
def includes (name : String) : Value → Fallible Bool
  | .mapping es => .ok (Entries.has name es)
  | .tuple xs | .list xs | .set xs => .ok (xs.any fun x => Value.same (.str name) x)
  | .str s => .ok (Text.contains s name)
  | _ => .error .mistyped

/-- What a loop over the value visits. -/
def items (v : Value) : Fallible (List Value) :=
  match v.items? with
  | some xs => .ok xs
  | none => .error .mistyped

/-- The elements of a value, or none if it counts as false. -/
def listOrEmpty (v : Value) : Fallible (List Value) :=
  if v.truth then v.items else .ok []

/-- A text, and nothing else. -/
def asText : Value → Fallible String
  | .str s => .ok s
  | _ => .error .mistyped

/-- A whole number. -/
def asWhole : Value → Fallible Int
  | .int i => .ok i
  | .bool b => .ok (if b then 1 else 0)
  | _ => .error .mistyped

/-- The entry that a pair in a list of entries stands for: it must have two elements, and the
first must be able to be a key. -/
def asEntry (i : Nat) (v : Value) : Fallible (Value × Value) :=
  match v.items? with
  | some [k, x] => if k.isKey then .ok (k, x) else .error .mistyped
  | some xs =>
    .error (.invalid ("dictionary update sequence element #" ++ toString i ++ " has length " ++
      toString xs.length ++ "; 2 is required"))
  | none => .error .mistyped

/-- The entries that the elements of a list stand for, from the `i`th on. -/
def asEntriesFrom (i : Nat) : List Value → Fallible (List (Value × Value))
  | [] => .ok []
  | v :: vs =>
    match asEntry i v with
    | .error e => .error e
    | .ok entry => (asEntriesFrom (i + 1) vs).map (entry :: ·)

/-- A mapping made of a mapping or of a list of pairs. -/
def asMapping (v : Value) : Fallible Entries :=
  match v with
  | .mapping es => .ok es
  | v =>
    match v.items? with
    | some xs => (asEntriesFrom 0 xs).map Entries.ofPairs
    | none => .error .mistyped

end Value

end Reflash
