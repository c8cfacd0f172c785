import Reflash.Proofs.Kinship
import Reflash.Proofs.Recovery

set_option autoImplicit false

/-! # Relations that runs of steps keep

What is done about actions and about steps is put together of a few operations on flows. A relation of
flows that is kept by these (`Flow.Kinship`) holds of two runs of the same steps, with two tables and on
two hosts, if it holds of what handlers and hosts do (`Workflow.Kin`), and of the two ways in which the
steps below are run (`Workflow.Kin.start`, `Workflow.Kin.step`).

A relation that is kept by handling failures in any way (`Flow.Congruence`) is one of these, and for one
workflow it is enough that what its handlers and its host do stands in the relation to itself
(`Workflow.Respects`). -/

namespace Reflash

open Run

variable {σ α β : Type}

theorem ActionTable.lookup_eq_ok {table : ActionTable σ} {id : String} {handler : Handler σ} :
    table.lookup id = .ok handler ↔ table.handler? id = some handler := by
  unfold ActionTable.lookup
  split <;> simp_all

/-! ## Flows -/

namespace Flow

/-- The flow passes a cause on, and at most says before that an action failed with it. -/
inductive PassesOn (c : Fault) : Flow σ α → Prop
  | raise : PassesOn c (Run.raise c)
  | failed (id : String) : PassesOn c (Run.emit (.failed id c) >>= fun _ => Run.raise c)

theorem PassesOn.bind {c : Fault} {flow : Flow σ α} (h : PassesOn c flow) (next : α → Flow σ β) :
    PassesOn c (flow >>= next) := by
  cases h with
  | raise => exact .raise
  | failed id =>
    rw [bind_assoc]
    exact .failed id

/-- A relation in which flows that are put together as in workflows stand if their parts do. Where it is
looked at whether an action failed, a kill is passed on, so the relation may count on that. -/
structure Kinship (rel : ∀ {α : Type}, Flow σ α → Flow σ α → Prop) : Prop where
  pure : ∀ {α : Type} (a : α), rel (Pure.pure a) (Pure.pure a)
  raise : ∀ {α : Type} (e : Fault), rel (Run.raise e : Flow σ α) (Run.raise e)
  unfinished : ∀ {α : Type}, rel (Run.unfinished : Flow σ α) Run.unfinished
  emit : ∀ e : Event, rel (Run.emit e) (Run.emit e)
  bind : ∀ {α β : Type} {flow flow' : Flow σ α} {next next' : α → Flow σ β}, rel flow flow' →
    (∀ a, rel (next a) (next' a)) → rel (flow >>= next) (flow' >>= next')
  failureOf_bind : ∀ {α β : Type} {flow flow' : Flow σ α}
    {next next' : Option (String × Fault) → Flow σ β}, rel flow flow' →
      (∀ r, rel (next r) (next' r)) →
        (∀ id message, PassesOn (.killed message) (next (some (id, .killed message)))) →
          rel (Flow.failureOf flow >>= next) (Flow.failureOf flow' >>= next')
  inside : ∀ {α : Type} {flow flow' : Flow σ α} (part : Part), rel flow flow' →
    rel (inside part flow) (inside part flow')
  repeatFrom : ∀ {α β : Type} {round round' : β → Flow σ (β ⊕ α)},
    (∀ b, rel (round b) (round' b)) → ∀ b,
      rel (Run.repeatFrom round b) (Run.repeatFrom round' b)

/-- Two flows that choose alike. -/
theorem rel_ite {rel : ∀ {α : Type}, Flow σ α → Flow σ α → Prop} {c : Prop} [Decidable c]
    {flow₁ flow₁' flow₂ flow₂' : Flow σ α} (h₁ : c → rel flow₁ flow₁')
    (h₂ : ¬c → rel flow₂ flow₂') :
    rel (if c then flow₁ else flow₂) (if c then flow₁' else flow₂') := by
  split
  · next h => exact h₁ h
  · next h => exact h₂ h

namespace Kinship

variable {rel : ∀ {α : Type}, Flow σ α → Flow σ α → Prop} (hrel : Kinship rel)
include hrel

theorem ofFallible (x : Fallible α) : rel (Run.ofFallible x : Flow σ α) (Run.ofFallible x) := by
  cases x with
  | ok a => exact hrel.pure a
  | error e => exact hrel.raise e

/-- Two flows that go on with the result of a computation. -/
theorem ofFallible_bind {x : Fallible α} {next next' : α → Flow σ β}
    (ok : ∀ a, x = .ok a → rel (next a) (next' a)) :
    rel ((liftM x : Flow σ α) >>= next) (liftM x >>= next') := by
  cases x with
  | ok a =>
    rw [ofFallible_ok_bind, ofFallible_ok_bind]
    exact ok a rfl
  | error e => exact hrel.raise e

theorem refuse (e : Fault) : rel (Flow.refuse e) (Flow.refuse e) := by
  unfold Flow.refuse
  split <;> exact hrel.raise _

theorem each {f f' : α → Flow σ Unit} {xs : List α} (hf : ∀ x ∈ xs, rel (f x) (f' x)) :
    rel (Run.each f xs) (Run.each f' xs) := by
  induction xs with
  | nil => exact hrel.pure ()
  | cons x xs ih =>
    exact hrel.bind (hf x (by simp)) fun _ => ih fun y hy => hf y (by simp [hy])

theorem inPart {flow flow' : Flow σ α} (part : Part) (h : rel flow flow') :
    rel (Flow.inPart part flow) (Flow.inPart part flow') :=
  hrel.bind (hrel.emit _) fun _ => hrel.bind (hrel.inside part h) fun a =>
    hrel.bind (hrel.emit _) fun _ => hrel.pure a

theorem log (level : Level) (message : String) :
    rel (Recovery.log level message) (Recovery.log level message) :=
  hrel.emit (.recovery (.logged ⟨level, "recovery", message⟩))

theorem requireResume (d : Decision) (message : String) :
    rel (Recovery.requireResume d message) (Recovery.requireResume d message) :=
  Flow.rel_ite (fun _ => hrel.pure _) fun _ => hrel.raise _

end Kinship

end Flow

/-! ## Workflows -/

namespace Workflow

/-- The same workflow with another table and on another host. -/
def onHost (wf : Workflow σ) (table : ActionTable σ) (host : Host σ) : Workflow σ :=
  { wf with table, ctx := wf.ctx.on host }

/-- What the calls of a workflow do, its pauses and its questions, stands in the relation to what they do
with another table and on another host. -/
structure Kin (wf : Workflow σ) (table' : ActionTable σ) (host' : Host σ)
    (rel : ∀ {α : Type}, Flow σ α → Flow σ α → Prop) : Prop where
  calls : ∀ d,
    rel ((Flow.callHandler wf.table wf.ctx d).rescue fun e => Run.raise (Flow.asFailureOf d.id e))
      ((Flow.callHandler table' (wf.ctx.on host') d).rescue fun e =>
        Run.raise (Flow.asFailureOf d.id e))
  pauses : rel (Flow.ofRecovery wf.ctx.host.pause) (Flow.ofRecovery host'.pause)
  asks : ∀ runSteps runSteps' prompt f step data,
    rel (Recovery.ask (wf.rules runSteps) prompt f step data)
      (Recovery.ask ((wf.onHost table' host').rules runSteps') prompt f step data)

namespace Kin

variable {rel : ∀ {α : Type}, Flow σ α → Flow σ α → Prop} {wf : Workflow σ}
  {table' : ActionTable σ} {host' : Host σ} {runSteps runSteps' : List Step → Flow σ Unit}
  (hrel : Flow.Kinship rel) (hwf : wf.Kin table' host' rel)
include hrel hwf

/-! ### Questions -/

theorem generic (f : ActionFailure) (step : Step) :
    rel (Recovery.generic (wf.rules runSteps) f step)
      (Recovery.generic ((wf.onHost table' host').rules runSteps') f step) := by
  refine hrel.bind (hrel.log _ _) fun _ => hrel.bind (hwf.asks _ _ _ _ _ _) fun decision => ?_
  split
  · exact hrel.pure _
  · exact hrel.bind (hrel.log _ _) fun _ => hrel.pure _
  · exact hrel.bind (hrel.log _ _) fun _ => hrel.pure _
  · exact hrel.raise _

theorem lowBattery (f : ActionFailure) (step : Step) :
    rel (Recovery.lowBattery (wf.rules runSteps) f step)
      (Recovery.lowBattery ((wf.onHost table' host').rules runSteps') f step) :=
  hrel.bind (hrel.log _ _) fun _ => hrel.bind (hwf.asks _ _ _ _ _ _) fun _ =>
    hrel.bind (hrel.requireResume _ _) fun _ => hrel.pure _

theorem connectionLost (f : ActionFailure) (step : Step) :
    rel (Recovery.connectionLost (wf.rules runSteps) f step)
      (Recovery.connectionLost ((wf.onHost table' host').rules runSteps') f step) :=
  hrel.bind (hwf.asks _ _ _ _ _ _) fun _ =>
    hrel.bind (hrel.requireResume _ _) fun _ => hrel.pure _

/-! ### What is run below a step -/

variable (hsteps : ∀ ss, rel (runSteps ss) (runSteps' ss))
include hsteps

theorem action (a : Action) :
    rel (Flow.action runSteps wf.table wf.ctx a)
      (Flow.action runSteps' table' (wf.ctx.on host') a) := by
  unfold Flow.action
  split
  · exact hrel.refuse _
  · refine hrel.bind (hwf.calls _) fun steps => ?_
    split
    · exact hrel.pure _
    · exact hrel.inPart _ (hsteps steps)

theorem actions (as : List Action) :
    rel (Flow.actions runSteps wf.table wf.ctx as)
      (Flow.actions runSteps' table' (wf.ctx.on host') as) :=
  hrel.each fun a _ => hwf.action hrel hsteps a

/-! ### Recovery -/

theorem unlockRound (step : Step) :
    rel (Recovery.unlockRound (wf.rules runSteps) step)
      (Recovery.unlockRound ((wf.onHost table' host').rules runSteps') step) := by
  have hactions (as : List Action) := hwf.actions hrel hsteps as
  refine hrel.failureOf_bind (hrel.inside _ (hactions _)) (fun r => ?_) fun _ _ => .raise
  rcases r with _ | ⟨id, cause⟩
  · exact hrel.pure _
  -- In order: a kill, unlocking that is not allowed yet, and the three ways to give up.
  refine Flow.rel_ite (fun _ => hrel.raise _) fun _ => Flow.rel_ite (fun _ => ?_) fun _ => ?_
  · exact hrel.bind (hwf.asks _ _ _ _ _ _) fun _ =>
      hrel.bind (hrel.requireResume _ _) fun _ => hrel.pure _
  refine Flow.rel_ite (fun _ => ?_) fun _ => Flow.rel_ite (fun _ => ?_) fun _ => ?_
  · exact hrel.bind (hrel.log _ _) fun _ => hrel.pure _
  · exact hrel.bind (hrel.log _ _) fun _ =>
      hrel.bind (hrel.inPart _ (hactions _)) fun _ => hrel.pure _
  · exact hrel.bind (hrel.log _ _) fun _ => hrel.pure _

theorem runUnlock (step : Step) :
    rel (Recovery.runUnlock (wf.rules runSteps) step)
      (Recovery.runUnlock ((wf.onHost table' host').rules runSteps') step) := by
  refine hrel.bind (hrel.ofFallible _) fun applies => Flow.rel_ite (fun _ => ?_) fun _ => ?_
  · exact hrel.repeatFrom (fun _ => hwf.unlockRound hrel hsteps step) ()
  · exact hrel.bind (hrel.log _ _) fun _ => hrel.pure _

theorem unlock (f : ActionFailure) (step : Step) :
    rel (Recovery.unlock (wf.rules runSteps) f step)
      (Recovery.unlock ((wf.onHost table' host').rules runSteps') f step) := by
  refine hrel.bind (hrel.log _ _) fun _ => hrel.bind (hwf.asks _ _ _ _ _ _) fun _ => ?_
  refine hrel.bind (hrel.requireResume _ _) fun _ => hrel.bind (hrel.emit _) fun _ => ?_
  refine hrel.bind (hwf.runUnlock hrel hsteps step) fun r => ?_
  rcases r with _ | f'
  · exact hrel.bind (hrel.emit _) fun _ => hrel.pure _
  · exact hwf.generic hrel f' step

theorem reconnect (f : ActionFailure) (step : Step) (count : Nat) :
    rel (Recovery.reconnect (wf.rules runSteps) f step count)
      (Recovery.reconnect ((wf.onHost table' host').rules runSteps') f step count) := by
  refine hrel.failureOf_bind (hrel.inPart _ (hwf.actions hrel hsteps _)) (fun r => ?_)
    fun _ _ => .raise
  rcases r with _ | ⟨id, cause⟩
  · exact hrel.bind (hrel.log _ _) fun _ => hrel.pure _
  · refine Flow.rel_ite (fun _ => hrel.raise _) fun _ => hrel.bind (hrel.log _ _) fun _ => ?_
    exact hwf.connectionLost hrel f step

theorem handle (f : ActionFailure) (step : Step) (a : StepAttempt) :
    rel (Recovery.handle (wf.rules runSteps) f step a)
      (Recovery.handle ((wf.onHost table' host').rules runSteps') f step a) := by
  have asking : rel (Recovery.connectionLost (wf.rules runSteps) f step)
      (Recovery.connectionLost ((wf.onHost table' host').rules runSteps') f step) :=
    hwf.connectionLost hrel f step
  have hgeneric : rel (Recovery.generic (wf.rules runSteps) f step)
      (Recovery.generic ((wf.onHost table' host').rules runSteps') f step) := hwf.generic hrel f step
  have unlocking := hwf.unlock hrel hsteps f step
  have reconnecting := hwf.reconnect hrel hsteps f step (a.reconnections + 1)
  unfold Recovery.handle
  refine hrel.bind (hrel.emit _) fun _ => Flow.rel_ite (fun _ => hrel.raise _) fun _ => ?_
  refine Flow.rel_ite (fun _ => ?_) fun _ => Flow.rel_ite (fun _ => ?_) fun _ => ?_
  · exact hrel.bind (hrel.log _ _) fun _ => hrel.pure _
  · exact hrel.bind (hrel.log _ _) fun _ =>
      hrel.bind (hrel.inPart _ (hwf.actions hrel hsteps _)) fun _ => hrel.pure _
  -- Nothing stands in for the step, so the kind of the failure decides.
  split
  case h_1 => exact hrel.bind (hwf.lowBattery hrel f step) fun _ => hrel.pure _
  case h_2 | h_3 =>
    exact Flow.rel_ite (fun _ => hrel.bind hgeneric fun _ => hrel.pure _)
      fun _ => hrel.bind unlocking fun _ => hrel.pure _
  case h_4 => exact hrel.bind asking fun _ => hrel.pure _
  case h_5 | h_6 =>
    refine Flow.rel_ite (fun _ => ?_) fun _ => hrel.bind reconnecting fun _ => hrel.pure _
    exact hrel.bind (hrel.log _ _) fun _ => hrel.bind asking fun _ => hrel.pure _
  case h_7 => exact hrel.bind hgeneric fun _ => hrel.pure _

/-! ### Steps -/

theorem start (s : Step) (a : StepAttempt) :
    rel (wf.start runSteps s a) ((wf.onHost table' host').start runSteps' s a) := by
  refine hrel.bind hwf.pauses fun _ => hrel.bind (hrel.ofFallible _) fun applies => ?_
  refine Flow.rel_ite (fun _ => ?_) fun _ => ?_
  · refine hrel.bind (hrel.ofFallible _) fun text => hrel.bind (hrel.emit _) fun _ => ?_
    refine hrel.failureOf_bind (hwf.actions hrel hsteps _) (fun r => ?_) fun id message => ?_
    · rcases r with _ | ⟨id, cause⟩
      · exact hrel.pure _
      · refine hrel.bind (hwf.handle hrel hsteps _ s a) fun r => ?_
        rcases r with ⟨_ | _, a'⟩
        · exact hrel.pure _
        · exact hrel.bind (hrel.ofFallible _) fun text =>
            hrel.bind (hrel.emit _) fun _ => hrel.pure _
    · dsimp only
      rw [Recovery.handle_of_killed _ rfl]
      exact (Flow.PassesOn.failed id).bind _
  · exact hrel.bind (hrel.ofFallible _) fun text =>
      hrel.bind (hrel.emit _) fun _ => hrel.pure _

theorem step (s : Step) : rel (wf.step runSteps s) ((wf.onHost table' host').step runSteps' s) :=
  hrel.repeatFrom (fun a => hwf.start hrel hsteps s a) {}

omit hsteps

theorem runStepsTo (depth : Nat) (ss : List Step) :
    rel (wf.runStepsTo depth ss) ((wf.onHost table' host').runStepsTo depth ss) := by
  induction depth generalizing ss with
  | zero => exact hrel.unfinished
  | succ depth ih => exact hrel.each fun s _ => hwf.step hrel ih s

end Kin

end Workflow

/-! ## One workflow -/

namespace Flow

/-- A relation in which flows that are put together stand if their parts do. -/
structure Congruence (rel : ∀ {α : Type}, Flow σ α → Flow σ α → Prop) : Prop where
  pure : ∀ {α : Type} (a : α), rel (Pure.pure a) (Pure.pure a)
  raise : ∀ {α : Type} (e : Fault), rel (Run.raise e : Flow σ α) (Run.raise e)
  unfinished : ∀ {α : Type}, rel (Run.unfinished : Flow σ α) Run.unfinished
  emit : ∀ e : Event, rel (Run.emit e) (Run.emit e)
  bind : ∀ {α β : Type} {flow flow' : Flow σ α} {next next' : α → Flow σ β}, rel flow flow' →
    (∀ a, rel (next a) (next' a)) → rel (flow >>= next) (flow' >>= next')
  rescue : ∀ {α : Type} {flow flow' : Flow σ α} {handler handler' : Fault → Flow σ α},
    rel flow flow' → (∀ e, rel (handler e) (handler' e)) →
      rel (flow.rescue handler) (flow'.rescue handler')
  attempt : ∀ {α : Type} {flow flow' : Flow σ α}, rel flow flow' → rel flow.attempt flow'.attempt
  inside : ∀ {α : Type} {flow flow' : Flow σ α} (part : Part), rel flow flow' →
    rel (inside part flow) (inside part flow')
  repeatFrom : ∀ {α β : Type} {round round' : β → Flow σ (β ⊕ α)},
    (∀ b, rel (round b) (round' b)) → ∀ b,
      rel (Run.repeatFrom round b) (Run.repeatFrom round' b)

theorem Congruence.kinship {rel : ∀ {α : Type}, Flow σ α → Flow σ α → Prop}
    (hrel : Congruence rel) : Kinship rel where
  pure := hrel.pure
  raise := hrel.raise
  unfinished := hrel.unfinished
  emit := hrel.emit
  bind := hrel.bind
  failureOf_bind h hnext _ := by
    refine hrel.bind (hrel.bind (hrel.attempt h) fun r => ?_) hnext
    split
    · exact hrel.pure _
    · exact hrel.pure _
    · exact hrel.raise _
  inside := hrel.inside
  repeatFrom := hrel.repeatFrom

end Flow

namespace Workflow

/-- What handlers and host of a workflow do stands in the relation to itself. -/
structure Respects (wf : Workflow σ) (rel : ∀ {α : Type}, Flow σ α → Flow σ α → Prop) : Prop where
  handles : ∀ id handler payload, wf.table.handler? id = some handler →
    rel (Flow.ofHandler (handler payload wf.ctx)) (Flow.ofHandler (handler payload wf.ctx))
  pauses : rel (Flow.ofRecovery wf.ctx.host.pause) (Flow.ofRecovery wf.ctx.host.pause)
  asks : ∀ prompt data action step cause,
    rel (Flow.ofRecovery (wf.ctx.host.ask prompt data action step cause))
      (Flow.ofRecovery (wf.ctx.host.ask prompt data action step cause))

namespace Respects

variable {rel : ∀ {α : Type}, Flow σ α → Flow σ α → Prop} {wf : Workflow σ}
  {runSteps runSteps' : List Step → Flow σ Unit}
  (hrel : Flow.Congruence rel) (hwf : wf.Respects rel)
include hrel hwf

theorem callHandler (d : Dispatch) :
    rel (Flow.callHandler wf.table wf.ctx d) (Flow.callHandler wf.table wf.ctx d) := by
  refine hrel.kinship.ofFallible_bind fun handler hl => hrel.bind (hrel.emit _) fun _ => ?_
  have hhandler := hwf.handles _ handler d.payload (ActionTable.lookup_eq_ok.mp hl)
  refine hrel.bind (hrel.rescue hhandler fun e => ?_) fun v => ?_
  · exact hrel.bind (hrel.emit _) fun _ => hrel.raise e
  · split
    · exact hrel.kinship.ofFallible _
    · exact hrel.pure _

theorem ask (prompt : Prompt) (f : ActionFailure) (step : Step) (data : List (String × Value)) :
    rel (Recovery.ask (wf.rules runSteps) prompt f step data)
      (Recovery.ask (wf.rules runSteps') prompt f step data) := by
  refine hrel.bind (hrel.attempt (hwf.asks _ _ _ _ _)) fun answer => ?_
  split
  · exact hrel.bind (hrel.emit _) fun _ => hrel.pure _
  · exact hrel.bind (hrel.emit _) fun _ => hrel.raise _

/-- The workflow is related to itself. -/
theorem kin : wf.Kin wf.table wf.ctx.host rel where
  calls d := hrel.rescue (hwf.callHandler hrel d) fun _ => hrel.raise _
  pauses := hwf.pauses
  asks _ _ := hwf.ask hrel

theorem step (hsteps : ∀ ss, rel (runSteps ss) (runSteps' ss)) (s : Step) :
    rel (wf.step runSteps s) (wf.step runSteps' s) :=
  (hwf.kin hrel).step hrel.kinship hsteps s

theorem runStepsTo (depth : Nat) (ss : List Step) :
    rel (wf.runStepsTo depth ss) (wf.runStepsTo depth ss) :=
  (hwf.kin hrel).runStepsTo hrel.kinship depth ss

end Respects

end Workflow

end Reflash
