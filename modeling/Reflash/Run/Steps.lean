import Reflash.Run.Event
import Reflash.Run.Table

set_option autoImplicit false

/-! # Actions of a workflow

How one action is carried out: it is looked up, its handler is called, and the steps that the
handler returns are run before the action counts as done. Any ordinary failure of the look-up, of
the handler or of reading the returned steps becomes the failure of this action; a failure of the
returned steps themselves is passed on as it is, and so is that of an identifier without a text. -/

namespace Reflash

namespace Flow

variable {σ : Type}

/-- The failure of an action: a declined question and a cancellation are passed on as they are. -/
def asFailureOf (id : String) : Fault → Fault
  | .aborted message => .aborted message
  | .cancelled message => .cancelled message
  | e => .inAction id e

/-- Calls the handler of an action and reads the steps that it returns. -/
def callHandler (table : ActionTable σ) (ctx : Context σ) (d : Dispatch) :
    Flow σ (List Step) := do
  let handler ← table.lookup d.id
  Run.emit (.dispatched d.ns d.verb d.payload)
  let substeps ← (ofHandler (handler d.payload ctx)).rescue fun e => do
    Run.emit (.raised e)
    Run.raise e
  if substeps.truth then Run.ofFallible (Step.listOf (d.id ++ " substeps") substeps)
  else return []

/-- What comes of an action that cannot be dispatched: that it is unknown is its failure. -/
def refuse : Fault → Flow σ Unit
  | .unknownAction id => Run.raise (.inAction id (.unknownAction id))
  | e => Run.raise e

/-- Carries out one action. `runSteps` runs the steps that its handler returns. -/
def action (runSteps : List Step → Flow σ Unit) (table : ActionTable σ) (ctx : Context σ)
    (a : Action) : Flow σ Unit :=
  match a.dispatch with
  | .error e => refuse e
  | .ok d => do
    let steps ← (callHandler table ctx d).rescue fun e => Run.raise (asFailureOf d.id e)
    if steps.isEmpty then return
    inPart .substeps (runSteps steps)

/-- Carries out actions in order. -/
def actions (runSteps : List Step → Flow σ Unit) (table : ActionTable σ) (ctx : Context σ)
    (as : List Action) : Flow σ Unit :=
  Run.each (action runSteps table ctx) as

/-- Carries out whatever a value stands for, if it stands for an action. -/
def actionOfValue (runSteps : List Step → Flow σ Unit) (table : ActionTable σ)
    (ctx : Context σ) (v : Value) : Flow σ Unit :=
  match Action.ofValue v with
  | .ok a => action runSteps table ctx a
  | .error e => refuse e

/-- The failure of an action with which a run ended, if it ended with one. -/
def failureOf {α : Type} (flow : Flow σ α) : Flow σ (Option (String × Fault)) := do
  match ← flow.attempt with
  | .ok _ => return none
  | .error (.inAction id cause) => return some (id, cause)
  | .error e => Run.raise e

end Flow

end Reflash
