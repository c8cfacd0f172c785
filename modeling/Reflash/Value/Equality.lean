import Reflash.Value.Basic

set_option autoImplicit false

/-! # When two values are the same

Numbers are the same when they are the same number, whatever their types: `true`, `1` and `1.0`
do not differ, and a whole number equals a floating-point one only when it is exactly that number.
The rule goes through lists and mappings; mappings are compared without regard to order. -/

namespace Reflash

namespace Value

/-- Whether two numbers of any types are equal; nothing if one of the two is no number. -/
def sameNumber? : Value → Value → Option Bool
  | .bool a, .bool b => some (a == b)
  | .bool a, .int b => some ((if a then 1 else 0) == b)
  | .int a, .bool b => some (a == (if b then 1 else 0))
  | .int a, .int b => some (a == b)
  | .bool a, .float y => some (Number.isWhole y (if a then 1 else 0))
  | .float x, .bool b => some (Number.isWhole x (if b then 1 else 0))
  | .int a, .float y => some (Number.isWhole y a)
  | .float x, .int b => some (Number.isWhole x b)
  | .float x, .float y => some (x == y)
  | _, _ => none

mutual

/-- Whether two values are the same. -/
def same : Value → Value → Bool
  | .null, .null => true
  | .str a, .str b => a == b
  | .bytes a, .bytes b => a == b
  | .date a, .date b => a == b
  | .dateTime a, .dateTime b => a.same b
  | .tuple xs, .tuple ys => sameList xs ys
  | .list xs, .list ys => sameList xs ys
  | .set xs, .set ys => xs.length == ys.length && allAmong xs ys
  | .mapping es, .mapping fs => es.length == fs.length && allWithin es fs
  | a, b => (sameNumber? a b).getD false

/-- Whether two lists have the same elements in the same order. -/
def sameList : List Value → List Value → Bool
  | [], [] => true
  | x :: xs, y :: ys => same x y && sameList xs ys
  | _, _ => false

/-- Whether every one of `xs` is among `ys`. -/
def allAmong : List Value → List Value → Bool
  | [], _ => true
  | x :: xs, ys => ys.any (fun y => same x y) && allAmong xs ys

/-- Whether every entry of `es` is among those of `fs`. -/
def allWithin : List (Value × Value) → List (Value × Value) → Bool
  | [], _ => true
  | (k, v) :: es, fs => fs.any (fun f => same k f.1 && same v f.2) && allWithin es fs

end

instance : BEq Value := ⟨same⟩

end Value

namespace Entries

/-- The value stored under `key`. -/
def get? (key : Value) : Entries → Option Value
  | [] => none
  | (k, v) :: es => if Value.same key k then some v else get? key es

/-- The value stored under a text key. -/
def field? (name : String) (es : Entries) : Option Value :=
  get? (.str name) es

/-- The value stored under a text key; null if there is none. -/
def fieldD (name : String) (es : Entries) : Value :=
  (es.field? name).getD .null

/-- Whether something is stored under a text key. -/
def has (name : String) (es : Entries) : Bool :=
  (es.field? name).isSome

/-- Stores `v` under `key`: in place of what was there, or at the end. -/
def put (key v : Value) : Entries → Entries
  | [] => [(key, v)]
  | (k, old) :: es => if Value.same key k then (k, v) :: es else (k, old) :: put key v es

/-- Stores every entry of `updates`, in order. -/
def putAll (es updates : Entries) : Entries :=
  updates.foldl (fun acc (k, v) => put k v acc) es

/-- The mapping that the pairs make when they are stored one after the other. -/
def ofPairs (pairs : List (Value × Value)) : Entries :=
  putAll [] pairs

/-- The keys in the order in which they first appeared. -/
def keys (es : Entries) : List Value :=
  es.map Prod.fst

end Entries

end Reflash
