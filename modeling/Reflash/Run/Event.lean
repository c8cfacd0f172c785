import Reflash.Run.Host

set_option autoImplicit false

/-! # Events of a workflow

What happens while steps are run: the signals of handlers and of recovery, and what the workflow
itself decides. Steps run for the sake of another one, be it as substeps, as a fallback, to unlock
or to reconnect, leave their events inside `within`, so the events of one step can be told from
those of the steps below it. -/

namespace Reflash

/-- Why actions are run for the sake of a step. -/
inductive Part where
  /-- As the substeps that a handler returned. -/
  | substeps
  /-- In place of the step, which failed. -/
  | fallback
  /-- To unlock the bootloader. -/
  | unlock
  /-- In place of the unlock flow, which failed. -/
  | unlockFallback
  /-- To get the device back. -/
  | reconnect
deriving Repr, DecidableEq

/-- What happens while steps are run. -/
inductive Event where
  /-- A handler, or a tool that it called, did something. -/
  | handler (signal : Signal)
  /-- Recovery did something. -/
  | recovery (signal : Signal)
  /-- A step was passed over because its condition does not hold. -/
  | skipped (step : String)
  /-- The actions of a step were started. -/
  | started (step : String)
  /-- A handler was called. -/
  | dispatched (ns verb : String) (payload : Value)
  /-- The handler that was called failed. -/
  | raised (cause : Fault)
  /-- Recovery was asked about the failure of an action. -/
  | failed (id : String) (cause : Fault)
  /-- Recovery got an answer to its question. -/
  | answered (prompt : Prompt) (decision : Decision)
  /-- Recovery got no answer: the question was cancelled, or could not be put. -/
  | unanswered (prompt : Prompt) (cause : Fault)
  /-- The step was granted another start, the `count`th. -/
  | replayed (step : String) (count : Nat)
  /-- Recovery or an action turned to actions for the sake of the step. -/
  | entered (part : Part)
  /-- They are through, and the step goes on without a failure of theirs. -/
  | left (part : Part)
  /-- Something happened while they ran. -/
  | within (part : Part) (event : Event)
  /-- The run ended early. -/
  | ended (signal : Signal)

namespace Event

/-- The signal that an event is to the outside. -/
def signal? : Event → Option Signal
  | handler s | recovery s | ended s => some s
  | skipped step =>
    some (.logged ⟨.debug, "interpreter", "Skipping step " ++ step ++ " (condition not met)"⟩)
  | started step => some (.logged ⟨.debug, "interpreter", "Running step " ++ step⟩)
  | dispatched ns verb _ =>
    some (.logged ⟨.debug, "interpreter", "Running " ++ ns ++ " action " ++ verb⟩)
  | failed id cause =>
    some (.logged ⟨.debug, "recovery",
      "Attempting to handle " ++ cause.kind.text ++ " from " ++ id ++ ": " ++ cause.text⟩)
  | replayed step count =>
    some (.logged ⟨.info, "interpreter",
      "Replaying step " ++ step ++ " (replay " ++ toString count ++ ")"⟩)
  | raised _ | answered .. | unanswered .. | entered _ | left _ => none
  | within _ event => event.signal?

end Event

/-- A run of steps. -/
abbrev Flow (σ α : Type) := Run Event σ α

namespace Flow

variable {σ α : Type}

/-- A handler's run as part of a workflow. -/
def ofHandler (job : Job σ α) : Flow σ α :=
  job.mapEvents .handler

/-- A run of recovery as part of a workflow. -/
def ofRecovery (job : Job σ α) : Flow σ α :=
  job.mapEvents .recovery

/-- A run of actions, seen as something done for the sake of a step. -/
def inside (part : Part) (flow : Flow σ α) : Flow σ α :=
  flow.mapEvents (.within part)

/-- The run of actions for the sake of a step, from their first to their last. -/
def inPart (part : Part) (flow : Flow σ α) : Flow σ α := do
  Run.emit (.entered part)
  let a ← inside part flow
  Run.emit (.left part)
  return a

/-- The workflow as the outside sees it. -/
def toJob (flow : Flow σ α) : Job σ α :=
  flow.filterEvents Event.signal?

end Flow

end Reflash
