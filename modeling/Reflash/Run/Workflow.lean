import Reflash.Run.Recovery

set_option autoImplicit false

/-! # Running steps

Steps are run strictly in order, one action at a time. A failed step is started again, in place,
for as long as recovery asks for it. `Workflow.run` is where runs that were ended on purpose stop:
it says whether the run reached its end. -/

namespace Reflash

/-- What a workflow is run with. -/
structure Workflow (σ : Type) where
  table : ActionTable σ
  ctx : Context σ
  reconnections : Int := defaultReconnections

namespace Workflow

variable {σ : Type}

/-- The rules of recovery in a workflow whose nested steps are run by `runSteps`. -/
def rules (wf : Workflow σ) (runSteps : List Step → Flow σ Unit) : Recovery.Rules σ :=
  { actions := Flow.actions runSteps wf.table wf.ctx
    reconnections := wf.reconnections
    ctx := wf.ctx }

/-- One start of a step: whether it is through, or what is remembered for the next start. -/
def start (wf : Workflow σ) (runSteps : List Step → Flow σ Unit) (step : Step)
    (a : StepAttempt) : Flow σ (StepAttempt ⊕ Unit) := do
  Flow.ofRecovery wf.ctx.host.pause
  if ← Condition.evaluate step.condition wf.ctx.settings.data then
    Run.emit (.started (← step.describe))
    match ← Flow.failureOf (Flow.actions runSteps wf.table wf.ctx step.actions) with
    | none => return .inr ()
    | some (id, cause) =>
      match ← Recovery.handle (wf.rules runSteps) ⟨id, cause⟩ step a with
      | (.done, _) => return .inr ()
      | (.replay, a) =>
        let a := { a with replays := a.replays + 1 }
        Run.emit (.replayed (← step.describe) a.replays)
        return .inl a
  else
    Run.emit (.skipped (← step.describe))
    return .inr ()

/-- Runs one step, again and again for as long as recovery asks for it. -/
def step (wf : Workflow σ) (runSteps : List Step → Flow σ Unit) (s : Step) : Flow σ Unit :=
  Run.repeatFrom (wf.start runSteps s) {}

/-- Runs steps in order; steps may be nested as deep as `depth` says. -/
def runStepsTo (wf : Workflow σ) : Nat → List Step → Flow σ Unit
  | 0, _ => Run.unfinished
  | depth + 1, steps => Run.each (wf.step (wf.runStepsTo depth)) steps

/-- Runs steps in order. -/
def runSteps (wf : Workflow σ) (steps : List Step) : Flow σ Unit :=
  Run.withBudget fun n => wf.runStepsTo n steps

/-- Carries out one action that a value stands for. -/
def runAction (wf : Workflow σ) (v : Value) : Flow σ Unit :=
  Flow.actionOfValue wf.runSteps wf.table wf.ctx v

/-- Carries out, in order, the actions that the elements of a value stand for. -/
def runActions (wf : Workflow σ) (listed : Value) : Flow σ Unit := do
  Run.each wf.runAction (← listed.items)

/-- Runs each step that an element of a value describes, reading it just before it is run. -/
def runValues (wf : Workflow σ) (listed : Value) : Flow σ Unit := do
  Run.each (fun v => do wf.runSteps [← Step.ofValue "step" v]) (← listed.items)

/-- What the workflow does when it is ended early. -/
def end_ (wf : Workflow σ) (cause : Fault) : Flow σ Bool :=
  (do Host.log .warning "interpreter" ("Aborting run: " ++ cause.text)
      wf.ctx.host.tell .idle
      return false : Job σ Bool).mapEvents .ended

/-- Says whether a run reached its end: a kill, a declined question and the failure of an action
end it early, anything else is passed on. -/
def settle (wf : Workflow σ) (flow : Flow σ Unit) : Flow σ Bool :=
  Run.rescue (do flow; return true) fun e =>
    if e.isTermination then wf.end_ e else Run.raise e

/-- Runs steps, and says whether they were run to the end. -/
def run (wf : Workflow σ) (steps : List Step) : Flow σ Bool :=
  wf.settle (wf.runSteps steps)

end Workflow

end Reflash
