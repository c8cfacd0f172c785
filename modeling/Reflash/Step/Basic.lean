import Reflash.Condition
import Reflash.Step.Typed
import Reflash.Value.Document

set_option autoImplicit false

/-! # Steps

A step is a list of actions with what decides when they run and what happens when they fail. Steps
are read off document values; whatever is not well-formed is refused with the place where it
stands. -/

namespace Reflash

/-- One action: its identifier as it stands in the document, and its payload. -/
structure Action where
  id : Value
  payload : Value
deriving Inhabited

namespace Action

/-- An action with a given name. -/
def named (id : String) (payload : Value := .null) : Action :=
  ⟨.str id, payload⟩

/-- The mapping with one key that stands for an action. -/
def toValue (a : Action) : Value :=
  .mapping [(a.id, a.payload)]

/-- The actions of a list, from the `i`th on. -/
def ofItems (path : String) (i : Nat) : List Value → Fallible (List Action)
  | [] => .ok []
  | .mapping [(id, payload)] :: vs => (ofItems path (i + 1) vs).map (⟨id, payload⟩ :: ·)
  | _ :: _ =>
    .error (.config (path ++ "[" ++ toString i ++
      "] must be a single-key mapping 'namespace:verb' -> payload"))

/-- The actions that a value lists. -/
def listOf (path : String) : Value → Fallible (List Action)
  | .list vs => ofItems path 0 vs
  | _ => .error (.config (path ++ " must be a list of actions"))

end Action

/-- One step of a workflow. `condition` is null for a step that always runs, and `fallback` is
empty for a step that has none; `raw` is the mapping that the step was read from. -/
structure Step where
  actions : List Action
  condition : Value := .null
  optional : Bool := false
  fallback : List Action := []
  resumable : Bool := false
  raw : Entries := []
deriving Inhabited

namespace Step

/-- The step that a mapping with actions describes. -/
def ofEntries (path : String) (raw : Entries) : Fallible Step := do
  let condition := raw.fieldD "condition"
  Condition.validate (path ++ ".condition") condition
  let actions ← Action.listOf (path ++ ".actions") ((raw.fieldD "actions").orElse (.list []))
  let fallback := raw.fieldD "fallback"
  return {
    actions
    condition := condition.orElse .null
    optional := (raw.fieldD "optional").truth
    fallback := ← if fallback.truth then Action.listOf (path ++ ".fallback") fallback else pure []
    resumable := (raw.fieldD "resumable").truth
    raw }

/-- The step that a value describes, by its actions or by its type. -/
def ofValue (path : String) : Value → Fallible Step
  | .mapping raw =>
    if isTyped raw then do
      let type ← (Entries.fieldD "type" raw).shown
      ofEntries path (actionForm type raw)
    else ofEntries path raw
  | _ => .error (.config (path ++ " must be a mapping"))

/-- The steps that the elements of a list describe, from the `i`th on. -/
def ofItems (path : String) (i : Nat) : List Value → Fallible (List Step)
  | [] => .ok []
  | v :: vs =>
    match ofValue (path ++ "[" ++ toString i ++ "]") v with
    | .error e => .error e
    | .ok step => (ofItems path (i + 1) vs).map (step :: ·)

/-- The steps that a value lists; null lists none. -/
def listOf (path : String) : Value → Fallible (List Step)
  | .null => .ok []
  | .list vs => ofItems path 0 vs
  | _ => .error (.config (path ++ " must be a list"))

/-- The one-line text of a step in records. It exists only if the keys of every mapping in the step
can be put in order and every number in it can be written. -/
def describe (step : Step) : Fallible String :=
  let shown : Entries :=
    if step.raw.isEmpty then [(.str "actions", .list (step.actions.map Action.toValue))]
    else step.raw
  (Value.mapping shown).document

end Step

end Reflash
