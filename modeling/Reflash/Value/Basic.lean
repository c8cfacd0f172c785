import Reflash.Value.Calendar

set_option autoImplicit false

/-! # Document values

What device documents, action payloads, settings and answers are made of. A mapping keeps its
entries in the order in which its keys first appeared, and its keys are any values that can serve
as keys (`Value.isKey`). -/

namespace Reflash

/-- A value of a document. What is not a number is a floating-point value too: the usual one, and
one with a minus sign, which only some documents can write. -/
inductive Value where
  | null
  | bool (b : Bool)
  | int (i : Int)
  | float (x : Float)
  | minusNaN
  | str (s : String)
  | bytes (bs : List UInt8)
  | date (d : Date)
  | dateTime (t : DateTime)
  | tuple (xs : List Value)
  | list (xs : List Value)
  | set (xs : List Value)
  | mapping (entries : List (Value × Value))
deriving Inhabited, Repr

/-- The entries of a mapping, in the order in which the keys first appeared. -/
abbrev Entries := List (Value × Value)

instance : Coe String Value := ⟨.str⟩

namespace Value

/-- Whether a value counts as true: everything but null, false, zero and what is empty. -/
def truth : Value → Bool
  | .null => false
  | .bool b => b
  | .int i => i != 0
  | .float x => x != 0.0
  | .minusNaN => true
  | .str s => !s.isEmpty
  | .bytes bs => !bs.isEmpty
  | .date _ | .dateTime _ => true
  | .tuple xs | .list xs | .set xs => !xs.isEmpty
  | .mapping es => !es.isEmpty

/-- The value itself if it counts as true, else `other`. -/
def orElse (v other : Value) : Value :=
  if v.truth then v else other

/-- The name of a value's type, as configuration messages give it. -/
def typeName : Value → String
  | .null => "NoneType"
  | .bool _ => "bool"
  | .int _ => "int"
  | .float _ | .minusNaN => "float"
  | .str _ => "str"
  | .bytes _ => "bytes"
  | .date _ => "date"
  | .dateTime _ => "datetime"
  | .tuple _ => "tuple"
  | .list _ => "list"
  | .set _ => "set"
  | .mapping _ => "dict"

mutual

/-- Whether a value can be the key of a mapping: scalars, and tuples of such. -/
def isKey : Value → Bool
  | .list _ | .set _ | .mapping _ => false
  | .tuple xs => areKeys xs
  | _ => true

/-- Whether all of `xs` can be keys. -/
def areKeys : List Value → Bool
  | [] => true
  | x :: xs => isKey x && areKeys xs

end

/-- What a loop over a value visits, if it can be looped over: elements, keys, characters or
byte values. -/
def items? : Value → Option (List Value)
  | .tuple xs | .list xs | .set xs => some xs
  | .mapping es => some (es.map Prod.fst)
  | .str s => some (s.toList.map fun c => .str (String.ofList [c]))
  | .bytes bs => some (bs.map fun b => .int b.toNat)
  | _ => none

/-- The entries of a mapping. -/
def entries? : Value → Option Entries
  | .mapping es => some es
  | _ => none

/-- A value that a mapping with text keys is built from. -/
def ofFields (fields : List (String × Value)) : Value :=
  .mapping (fields.map fun (name, v) => (.str name, v))

end Value

end Reflash
