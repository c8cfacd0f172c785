import Reflash.Document.Yaml.Node
import Reflash.Document.Yaml.Denotation
import Reflash.Value.Equality

set_option autoImplicit false

/-! # From nodes to values

The value of a node follows its tag: a scalar's text denotes a value, a sequence is a list or a
list of pairs, a mapping is a mapping or the set of its keys. A mapping takes over the entries of
the mappings that it merges; they come first, and its own entries replace them.

A node can fail in several places. The failure nearest to the root counts, and of equally near
ones the first (`Found.both`): a collection is there before its elements are looked at. -/

namespace Reflash.Yaml

/-! ## Failures and their distance from the root -/

/-- A result, or a failure and its distance from the root. -/
abbrev Found (α : Type) := Except (Nat × Fault) α

namespace Found

variable {α β : Type}

/-- A failure at the place itself. -/
def here : Fallible α → Found α
  | .ok a => .ok a
  | .error e => .error (0, e)

/-- The result one step further away from the root. -/
def below : Found α → Found α
  | .ok a => .ok a
  | .error (n, e) => .error (n + 1, e)

/-- Two results; of two failures the nearer one, or the first if they are equally near. -/
def both : Found α → Found β → Found (α × β)
  | .ok a, .ok b => .ok (a, b)
  | .ok _, .error e => .error e
  | .error e, .ok _ => .error e
  | .error e, .error e' => .error (if e'.1 < e.1 then e' else e)

/-- The results of all elements. -/
def all (f : α → Found β) : List α → Found (List β)
  | [] => .ok []
  | a :: as => (both (f a) (all f as)).map fun (b, bs) => b :: bs

/-- The result without the distance of its failure. -/
def settle : Found α → Fallible α
  | .ok a => .ok a
  | .error (_, e) => .error e

end Found

/-! ## Merging -/

namespace Node

/-- The entry of a mapping that merges nothing; the mark for a value is an ordinary key there. -/
def ownEntry : Node × Node → Option (Node × Node)
  | (.scalar .merge _, _) => none
  | (.sequence .merge _, _) => none
  | (.mapping .merge _, _) => none
  | (.scalar .value text, v) => some (.scalar .str text, v)
  | entry => some entry

mutual

/-- The entries of a mapping, those of the mappings that it merges first. -/
def entries : Node → Fallible (List (Node × Node))
  | .mapping _ es => do
    let taken ← mergedEntries es
    return taken ++ es.filterMap ownEntry
  | _ => refuse

/-- What one merge takes over: the entries of a mapping, or those of several mappings, of which
the earlier ones replace the later ones. -/
def mergeable : Node → Fallible (List (Node × Node))
  | .mapping tag es => entries (.mapping tag es)
  | .sequence _ items => do
    let parts ← entriesOfAll items
    return parts.reverse.flatten
  | .scalar _ _ => refuse

/-- The entries of each of several mappings. -/
def entriesOfAll : List Node → Fallible (List (List (Node × Node)))
  | [] => .ok []
  | n :: ns => do
    let first ← entries n
    let others ← entriesOfAll ns
    return first :: others

/-- What all merges among the entries of a mapping take over. -/
def mergedEntries : List (Node × Node) → Fallible (List (Node × Node))
  | [] => .ok []
  | (k, v) :: es =>
    if k.tag = .merge then do
      let first ← mergeable v
      let others ← mergedEntries es
      return first ++ others
    else mergedEntries es

end

/-! ## Values -/

mutual

/-- How deeply a node is nested. -/
def depth : Node → Nat
  | .scalar _ _ => 1
  | .sequence _ items => depthOfAll items + 1
  | .mapping _ es => depthOfEntries es + 1

/-- How deeply the deepest of several nodes is nested. -/
def depthOfAll : List Node → Nat
  | [] => 0
  | n :: ns => max (depth n) (depthOfAll ns)

/-- How deeply the deepest key or value of several entries is nested. -/
def depthOfEntries : List (Node × Node) → Nat
  | [] => 0
  | (k, v) :: es => max (max (depth k) (depth v)) (depthOfEntries es)

end

mutual

/-- The text of a scalar. The scalar may be the marked value of a mapping. -/
def scalarText : Node → Fallible String
  | .scalar _ text => .ok text
  | .mapping _ es => markedText es
  | .sequence _ _ => refuse

/-- The text of the first entry that is marked as the value of its mapping. -/
def markedText : List (Node × Node) → Fallible String
  | [] => refuse
  | (k, v) :: es => if k.tag = .value then scalarText v else markedText es

end

/-- The value of a node whose tag is not one for collections. -/
def scalarValue (n : Node) : Fallible Value :=
  match n, n.tag with
  | .scalar tag text, _ => tag.denote text
  | _, .timestamp => do
    let _ ← n.scalarText
    .error .mistyped
  | _, tag =>
    if tag ∈ [.null, .bool, .int, .float, .binary, .str] then do tag.denote (← n.scalarText)
    else refuse

/-- The key that a node stands for; a collection is none. -/
def keyValue (n : Node) : Fallible Value :=
  if n.tag ∈ [.seq, .map, .omap, .pairs, .set] then refuse else n.scalarValue

/-- The only entry of a mapping that stands for a pair. -/
def soleEntry : Node → Fallible (Node × Node)
  | .mapping _ [entry] => .ok entry
  | _ => refuse

/-- The value of a node that is nested at most `fuel` deep. -/
def valueWithin : Nat → Node → Found Value
  | 0, _ => Found.here refuse
  | fuel + 1, n =>
    match n.tag with
    | .seq => Found.below (
      match n with
      | .sequence _ items => (Found.all (valueWithin fuel) items).map .list
      | _ => Found.here refuse)
    | .omap | .pairs => Found.below (
      match n with
      | .sequence _ items => (Found.all (pairWithin fuel) items).map .list
      | _ => Found.here refuse)
    | .map => Found.below ((mappingWithin fuel n).map .mapping)
    | .set => Found.below ((mappingWithin fuel n).map fun es => .set es.keys)
    | _ => Found.here n.scalarValue
where
  /-- The pair that a mapping with one entry stands for. -/
  pairWithin (fuel : Nat) (n : Node) : Found Value :=
    match n.soleEntry with
    | .ok (k, v) => (Found.both (valueWithin fuel k) (valueWithin fuel v)).map fun (x, y) =>
      .tuple [x, y]
    | .error e => .error (0, e)
  /-- The entries of a mapping; of those with the same key the last one counts. -/
  mappingWithin (fuel : Nat) (n : Node) : Found Entries :=
    match n.entries with
    | .ok es =>
      (Found.all (fun (k, v) => Found.both (Found.here k.keyValue) (valueWithin fuel v)) es).map
        Entries.ofPairs
    | .error e => .error (0, e)

/-- The value of a node. -/
def value (n : Node) : Fallible Value :=
  Found.settle (n.valueWithin n.depth)

end Node

/-- The value of a document; a text without one stands for null. -/
def read (text : String) : Fallible Value := do
  match ← document (← tokens text) with
  | some n => n.value
  | none => return .null

end Reflash.Yaml
