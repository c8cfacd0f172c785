import Reflash.Run.Steps

set_option autoImplicit false

/-! # Recovery

What is done about the failure of one of a step's actions. A kill is passed on before anything else
is considered. Then the first rule that applies is taken:

* an optional step counts as done;
* a step with a fallback is replaced by it, and a failure of the fallback is passed on;
* on a low battery the user is asked to charge the device;
* a locked bootloader is unlocked, once for each step;
* for a lost device the user is asked to reconnect it;
* an offline or unauthorized device is reconnected automatically, a limited number of times for
  each step, and after that the user is asked;
* anything else is put before the user, who can retry, ignore or abort.

Recovery never runs the step again itself; it says whether to (`Resolution`). -/

namespace Reflash

/-- What becomes of a step once recovery is through. -/
inductive Resolution where
  | done
  | replay
deriving Repr, DecidableEq

/-- What recovery remembers of one step across its replays. -/
structure StepAttempt where
  reconnections : Nat := 0
  unlockAttempted : Bool := false
  replays : Nat := 0
deriving Repr, DecidableEq

/-- The failure of an action of a step. -/
structure ActionFailure where
  id : String
  cause : Fault

namespace ActionFailure

/-- The kind by which recovery decides. -/
def kind (f : ActionFailure) : FailureKind := f.cause.kind

end ActionFailure

/-- The most automatic reconnections of one step. -/
def defaultReconnections : Int := 3

namespace Recovery

variable {σ : Type}

/-- What recovery needs: how to carry out actions, and the limit of automatic reconnections. -/
structure Rules (σ : Type) where
  actions : List Action → Flow σ Unit
  reconnections : Int
  ctx : Context σ

/-- Adds a line to the record. -/
def log (level : Level) (message : String) : Flow σ Unit :=
  Flow.ofRecovery (Host.log level "recovery" message)

/-- Asks about the failure of a step. -/
def ask (rules : Rules σ) (prompt : Prompt) (f : ActionFailure) (step : Step)
    (data : List (String × Value) := []) : Flow σ Decision := do
  let question := rules.ctx.host.ask prompt (.ofFields data) (some f.id) (some step.raw)
    (some f.cause.text)
  match ← (Flow.ofRecovery question).attempt with
  | .ok decision =>
    Run.emit (.answered prompt decision)
    return decision
  | .error e =>
    Run.emit (.unanswered prompt e)
    Run.raise e

/-- Ends the run unless the answer lets it go on. -/
def requireResume (d : Decision) (message : String) : Flow σ Unit :=
  if d.resumes then return else Run.raise (.aborted message)

/-- Puts a failure before the user. -/
def generic (rules : Rules σ) (f : ActionFailure) (step : Step) : Flow σ Resolution := do
  log .error (f.id ++ " failed: " ++ f.cause.text)
  let decision ← ask rules .error f step
  match decision.choice with
  | .retry => return .replay
  | .ignore | .continue =>
    log .warning ("Ignoring failure of " ++ f.id)
    return .done
  | .abort => Run.raise (.aborted (f.id ++ " failed: " ++ f.cause.text))

/-- Asks the user to charge the device. -/
def lowBattery (rules : Rules σ) (f : ActionFailure) (step : Step) : Flow σ Resolution := do
  log .warning ("Device battery too low: " ++ f.cause.text)
  requireResume (← ask rules .lowPower f step) "installation stopped on low battery"
  return .replay

/-- Asks the user to reconnect the device. -/
def connectionLost (rules : Rules σ) (f : ActionFailure) (step : Step) : Flow σ Resolution := do
  let decision ← ask rules .connectionLost f step [("resumable", .bool step.resumable)]
  requireResume decision "connection lost"
  return .replay

/-- One run of the unlock flow: the failure, if any, with which the flow ended, or that it is to be
run again, because the user has allowed unlocking now. -/
def unlockRound (rules : Rules σ) (step : Step) : Flow σ (Unit ⊕ Option ActionFailure) := do
  let unlock := rules.ctx.device.unlockStep
  match ← Flow.failureOf (Flow.inside .unlock (rules.actions unlock.actions)) with
  | none => return .inr none
  | some (id, cause) =>
    let f : ActionFailure := ⟨id, cause⟩
    if f.kind = .killed then Run.raise cause
    else if f.kind = .unlockDisabled then
      requireResume (← ask rules .oemLock f step [("enable", .bool true)])
        "OEM unlocking was not enabled"
      return .inl ()
    else if unlock.optional then
      log .info ("Ignoring failure of optional unlock flow: " ++ cause.text)
      return .inr none
    else if !unlock.fallback.isEmpty then
      log .warning ("Unlock flow failed, running its fallback: " ++ cause.text)
      Flow.inPart .unlockFallback (rules.actions unlock.fallback)
      return .inr none
    else
      log .warning ("Unlock flow failed: " ++ cause.text)
      return .inr (some f)

/-- Runs the unlock flow, if the unlock step applies: the failure with which it ended, if any. -/
def runUnlock (rules : Rules σ) (step : Step) : Flow σ (Option ActionFailure) := do
  if ← Condition.evaluate rules.ctx.device.unlockStep.condition rules.ctx.settings.data then
    Run.repeatFrom (fun _ => unlockRound rules step) ()
  else
    log .debug "Skipping unlock flow (condition not met)"
    return none

/-- Unlocks the bootloader, if the user agrees. A failure of the unlock flow is put before the
user. -/
def unlock (rules : Rules σ) (f : ActionFailure) (step : Step) : Flow σ Resolution := do
  log .warning ("Bootloader locked (" ++ f.id ++ "), running unlock flow")
  requireResume (← ask rules .oemLock f step [("enable", .bool false)])
    "bootloader unlock declined"
  Run.emit (.entered .unlock)
  match ← runUnlock rules step with
  | none =>
    Run.emit (.left .unlock)
    return .replay
  | some f => generic rules f step

/-- The action that gets a device back. -/
def reconnectAction : Action := .named "adb:reconnect"

/-- Gets the device back automatically; where that fails, the user is asked. `count` is the number
of this reconnection. -/
def reconnect (rules : Rules σ) (f : ActionFailure) (step : Step) (count : Nat) :
    Flow σ Resolution := do
  match ← Flow.failureOf (Flow.inPart .reconnect (rules.actions [reconnectAction])) with
  | some (_, cause) =>
    if cause.kind = .killed then Run.raise cause
    else
      log .warning ("Failed to reconnect automatically: " ++ cause.text)
      connectionLost rules f step
  | none =>
    log .warning ("Automatic reconnection " ++ toString count)
    return .replay

/-- Decides about the failure of a step, and remembers what was tried. -/
def handle (rules : Rules σ) (f : ActionFailure) (step : Step) (a : StepAttempt) :
    Flow σ (Resolution × StepAttempt) := do
  Run.emit (.failed f.id f.cause)
  if f.kind = .killed then
    Run.raise f.cause
  else if step.optional then
    log .info ("Ignoring failure of optional step (" ++ f.id ++ "): " ++ f.cause.text)
    return (.done, a)
  else if !step.fallback.isEmpty then
    log .warning (f.id ++ " failed, running fallback: " ++ f.cause.text)
    Flow.inPart .fallback (rules.actions step.fallback)
    return (.done, a)
  else
    match f.kind with
    | .lowBattery => return (← lowBattery rules f step, a)
    | .bootloaderLocked | .unlockDisabled =>
      if a.unlockAttempted then return (← generic rules f step, a)
      else return (← unlock rules f step, { a with unlockAttempted := true })
    | .noDevice => return (← connectionLost rules f step, a)
    | .deviceOffline | .unauthorized =>
      if rules.reconnections ≤ a.reconnections then
        log .warning "Maximum automatic reconnection attempts exceeded"
        return (← connectionLost rules f step, a)
      else
        let count := a.reconnections + 1
        return (← reconnect rules f step count, { a with reconnections := count })
    | _ => return (← generic rules f step, a)

end Recovery

end Reflash
