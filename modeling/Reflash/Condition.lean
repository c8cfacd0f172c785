import Reflash.Fault
import Reflash.Value.Equality

set_option autoImplicit false

/-! # Conditions

A step may carry a condition on the settings of the run: a leaf asks whether a variable has a
value, and `AND`, `OR` and `NOT` combine conditions. `Condition.read` reads a condition off a
document value, `Condition.eval` decides it, and `Condition.validate` says where a value that is
meant as a condition is not well-formed. Reading is total: what cannot be evaluated becomes
`malformed`, which fails when it is reached. -/

namespace Reflash

/-- A condition on the settings. -/
inductive Condition where
  /-- Holds whatever the settings are. -/
  | always
  /-- Holds if all of the conditions do. -/
  | all (cs : List Condition)
  /-- Holds if one of the conditions does. -/
  | any (cs : List Condition)
  /-- Holds if the condition does not. -/
  | negation (c : Condition)
  /-- Holds if the variable is present with a value that is the same as the given one. -/
  | holds (var value : Value)
  /-- Fails when it is evaluated. -/
  | malformed
deriving Inhabited

namespace Condition

/-- The keys that make a mapping an operator node. -/
def operators : List String := ["AND", "OR", "NOT"]

/-! ## Reading -/

mutual

/-- The condition that a value stands for. What counts as false holds always; in a mapping the
first of `AND`, `OR` and `NOT` that is present decides, and without one it is a leaf. -/
def read : Value → Condition
  | .mapping es =>
    if es.isEmpty then .always
    else
      match childrenAt "AND" es with
      | some (some cs) => .all cs
      | some none => .malformed
      | none =>
        match childrenAt "OR" es with
        | some (some cs) => .any cs
        | some none => .malformed
        | none =>
          match operandAt es with
          | some c => .negation c
          | none => .holds (Entries.fieldD "var" es) (Entries.fieldD "value" es)
  | v => if v.truth then .malformed else .always

/-- The conditions that the elements of a list stand for. -/
def readList : List Value → List Condition
  | [] => []
  | v :: vs => read v :: readList vs

/-- The conditions that the keys of a mapping stand for. -/
def readKeys : List (Value × Value) → List Condition
  | [] => []
  | (k, _) :: es => read k :: readKeys es

/-- The conditions under an operator, if the value there can be looped over. -/
def children : Value → Option (List Condition)
  | .tuple xs | .list xs | .set xs => some (readList xs)
  | .mapping es => some (readKeys es)
  | .str s => some (s.toList.map fun _ => .malformed)
  | .bytes bs => some (bs.map fun b => if b == 0 then .always else .malformed)
  | _ => none

/-- What stands under the operator `op` of a mapping, if it has that operator. -/
def childrenAt (op : String) : List (Value × Value) → Option (Option (List Condition))
  | [] => none
  | (k, v) :: es => if Value.same (.str op) k then some (children v) else childrenAt op es

/-- The operand of `NOT` in a mapping, if it has one. -/
def operandAt : List (Value × Value) → Option Condition
  | [] => none
  | (k, v) :: es => if Value.same (.str "NOT") k then some (read v) else operandAt es

end

/-! ## Evaluation -/

mutual

/-- Whether a condition holds under the settings. Every child of a node is evaluated, so a
malformed one is found whatever the others say. -/
def eval (settings : Entries) : Condition → Fallible Bool
  | .always => .ok true
  | .all cs => (evalAll settings cs).map fun bs => bs.all id
  | .any cs => (evalAll settings cs).map fun bs => bs.any id
  | .negation c => (eval settings c).map (!·)
  | .holds var value =>
    if var.isKey then
      .ok (match Entries.get? var settings with
        | some actual => actual.same value
        | none => false)
    else .error .mistyped
  | .malformed => .error .mistyped

/-- What each of several conditions says, in order, up to the first that fails. -/
def evalAll (settings : Entries) : List Condition → Fallible (List Bool)
  | [] => .ok []
  | c :: cs =>
    match eval settings c with
    | .error e => .error e
    | .ok b => (evalAll settings cs).map (b :: ·)

end

/-- Whether the condition that a value stands for holds under the settings. -/
def evaluate (v : Value) (settings : Entries) : Fallible Bool :=
  (read v).eval settings

/-! ## Validation -/

/-- The place of the `i`th child of an operator node. -/
def childPath (path op : String) (i : Nat) : String :=
  path ++ "." ++ op ++ "[" ++ toString i ++ "]"

mutual

/-- Says where a value is not a condition: it must be null or a mapping, with at most one operator,
and a leaf must name its variable. -/
def validate (path : String) : Value → Fallible Unit
  | .null => .ok ()
  | .mapping es =>
    match operators.filter fun op => Entries.has op es with
    | [] =>
      if Entries.has "var" es then .ok ()
      else .error (.config (path ++ ": leaf expression needs 'var'"))
    | ["NOT"] => validateOperand path es
    | [op] => validateChildren path op es
    | ops =>
      .error (.config (path ++ ": expression mixes operators " ++
        (Value.list (ops.map .str)).literal))
  | v =>
    .error (.config (path ++ ": expression must be a mapping, got " ++ v.typeName))

/-- Validates the operand of `NOT`, which must be there. -/
def validateOperand (path : String) : List (Value × Value) → Fallible Unit
  | [] => .ok ()
  | (k, v) :: es =>
    if Value.same (.str "NOT") k then
      match v with
      | .null => .error (.config (path ++ ": NOT needs an operand"))
      | v => validate (path ++ ".NOT") v
    else validateOperand path es

/-- Validates what stands under `AND` or `OR`, which must be a list of conditions. -/
def validateChildren (path op : String) : List (Value × Value) → Fallible Unit
  | [] => .ok ()
  | (k, v) :: es =>
    if Value.same (.str op) k then
      match v with
      | .list xs => validateEach path op 0 xs
      | _ => .error (.config (path ++ ": " ++ op ++ " needs a list"))
    else validateChildren path op es

/-- Validates the children of an operator from the `i`th on. -/
def validateEach (path op : String) (i : Nat) : List Value → Fallible Unit
  | [] => .ok ()
  | v :: vs =>
    match validate (childPath path op i) v with
    | .error e => .error e
    | .ok () => validateEach path op (i + 1) vs

end

end Condition

end Reflash
