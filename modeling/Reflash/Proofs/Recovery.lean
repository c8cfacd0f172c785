import Reflash.Proofs.Flow

set_option autoImplicit false

/-! # What recovery ensures

Recovery takes one of a few courses about a failure (`Recovery.handle_course`). Most of what a course
does is to log, to ask and to take a declining answer for the end of the run. A postcondition that
survives these three (`Recovery.Sustains`) is kept by all courses but those that carry out actions,
and by these as far as it is kept by the actions. -/

namespace Reflash

open Run

variable {σ α : Type}

/-- A line that recovery writes. -/
def Event.line (level : Level) (message : String) : Event :=
  .recovery (.logged ⟨level, "recovery", message⟩)

namespace Recovery

/-- Recovery passes a kill on before it considers anything else. -/
theorem handle_of_killed (rules : Rules σ) {f : ActionFailure} (hf : f.kind = .killed)
    (step : Step) (a : StepAttempt) :
    handle rules f step a = (do Run.emit (.failed f.id f.cause); Run.raise f.cause) := by
  unfold handle
  rw [if_pos hf]

/-! ## Questions -/

theorem log_eq (level : Level) (message : String) :
    (log level message : Flow σ Unit) =
      Run.emit (.recovery (.logged ⟨level, "recovery", message⟩)) := rfl

theorem log_bind (level : Level) (message : String) (next : Unit → Flow σ α) (n : Nat) (w : σ) :
    (log level message >>= next) n w = (next () n w).after [.line level message] := rfl

theorem log_emits (level : Level) (message : String) :
    (log level message : Flow σ Unit).Emits fun e => ∃ s, e = .recovery s :=
  Flow.ofRecovery_emits _

/-- A question of recovery leaves the signals of the shell, and then how it was answered. -/
theorem ask_ensures {R : List Signal → Ending Decision → Prop}
    {P : List Event → Ending Decision → Prop} {rules : Rules σ} {prompt : Prompt}
    {f : ActionFailure} {step : Step} {data : List (String × Value)}
    (hask : (rules.ctx.host.ask prompt (.ofFields data) (some f.id) (some step.raw)
      (some f.cause.text)).Ensures R)
    (answered : ∀ es d, R es (.returned d) →
      P (es.map .recovery ++ [.answered prompt d]) (.returned d))
    (unanswered : ∀ es e, R es (.raised e) →
      P (es.map .recovery ++ [.unanswered prompt e]) (.raised e))
    (unfinished : ∀ es, R es .unfinished → P (es.map .recovery) .unfinished) :
    (ask rules prompt f step data).Ensures P := by
  intro n w
  have h := hask n w
  change P (Run.bind _ _ n w).events (Run.bind _ _ n w).ending
  unfold Run.bind Run.attempt Flow.ofRecovery Run.mapEvents
  dsimp only
  rcases hrun : rules.ctx.host.ask prompt (.ofFields data) (some f.id) (some step.raw)
    (some f.cause.text) n w with ⟨o, es, w'⟩
  rw [hrun] at h
  cases o with
  | returned d => exact answered es d h
  | raised e => exact unanswered es e h
  | unfinished => exact unfinished es h

/-! ## What recovery does about a failure -/

/-- What recovery can do about a failure that it was asked about, and what it remembers then. -/
inductive Course (rules : Rules σ) (f : ActionFailure) (step : Step) (a : StepAttempt) :
    Flow σ Resolution → StepAttempt → Prop
  | killed (kind : f.kind = .killed) : Course rules f step a (Run.raise f.cause) a
  | optional (kind : f.kind ≠ .killed) (optional : step.optional) :
    Course rules f step a
      (do log .info ("Ignoring failure of optional step (" ++ f.id ++ "): " ++ f.cause.text)
          return .done) a
  | fallback (kind : f.kind ≠ .killed) (optional : step.optional = false)
    (fallback : step.fallback ≠ []) :
    Course rules f step a
      (do log .warning (f.id ++ " failed, running fallback: " ++ f.cause.text)
          Flow.inPart .fallback (rules.actions step.fallback)
          return .done) a
  | lowBattery (kind : f.kind = .lowBattery) : Course rules f step a (lowBattery rules f step) a
  | unlock (attempted : a.unlockAttempted = false) :
    Course rules f step a (unlock rules f step) { a with unlockAttempted := true }
  | connectionLost : Course rules f step a (connectionLost rules f step) a
  | exhausted (limit : rules.reconnections ≤ a.reconnections) :
    Course rules f step a
      (do log .warning "Maximum automatic reconnection attempts exceeded"
          connectionLost rules f step) a
  | reconnect (limit : a.reconnections < rules.reconnections) :
    Course rules f step a (reconnect rules f step (a.reconnections + 1))
      { a with reconnections := a.reconnections + 1 }
  | generic : Course rules f step a (generic rules f step) a

/-- Recovery takes one course, whatever the failure is. -/
theorem handle_course (rules : Rules σ) (f : ActionFailure) (step : Step) (a : StepAttempt) :
    ∃ course a', Course rules f step a course a' ∧
      handle rules f step a = do
        Run.emit (.failed f.id f.cause)
        let resolution ← course
        return (resolution, a') := by
  unfold handle
  by_cases hk : f.kind = .killed
  · exact ⟨_, _, .killed hk, by rw [if_pos hk]; rfl⟩
  rw [if_neg hk]
  cases ho : step.optional with
  | true => exact ⟨_, _, .optional hk ho, by simp only [if_true, bind_assoc, pure_bind]⟩
  | false =>
    by_cases hf : step.fallback = []
    · -- Nothing stands in for the step, so the kind of the failure decides.
      simp only [hf, List.isEmpty_nil, Bool.not_true, Bool.false_eq_true, if_false]
      split
      · next h => exact ⟨_, _, .lowBattery h, rfl⟩
      · split
        · exact ⟨_, _, .generic, rfl⟩
        · next h => exact ⟨_, _, .unlock (by simpa using h), rfl⟩
      · split
        · exact ⟨_, _, .generic, rfl⟩
        · next h => exact ⟨_, _, .unlock (by simpa using h), rfl⟩
      · exact ⟨_, _, .connectionLost, rfl⟩
      · split
        · next h => exact ⟨_, _, .exhausted h, by simp only [bind_assoc]⟩
        · next h => exact ⟨_, _, .reconnect (by omega), rfl⟩
      · split
        · next h => exact ⟨_, _, .exhausted h, by simp only [bind_assoc]⟩
        · next h => exact ⟨_, _, .reconnect (by omega), rfl⟩
      · exact ⟨_, _, .generic, rfl⟩
    · refine ⟨_, _, .fallback hk ho hf, ?_⟩
      simp [hf]

/-! ## Postconditions that recovery keeps -/

/-- A postcondition that composes, and that logging, asking and being declined keep. -/
structure Sustains (rules : Rules σ) (P : List Event → Ending Unit → Prop) : Prop
    extends Composes P where
  logs : ∀ level message, (log level message : Flow σ Unit).Meets P
  asks : ∀ prompt f step data, (ask rules prompt f step data).Meets P
  declines : ∀ message, P [] (.raised (.aborted message))

/-- The failure of the run may be looked at: what follows keeps the postcondition of the whole, if it
passes kills on and keeps it about anything else. -/
def Recoverable (P : List Event → Ending Unit → Prop) (flow : Flow σ α) : Prop :=
  ∀ {β : Type} (next : Option (String × Fault) → Flow σ β), (next none).Meets P →
    (∀ id c, c.kind ≠ .killed → (next (some (id, c))).Meets P) →
    (∀ id c, c.kind = .killed → next (some (id, c)) = Run.raise c) →
    (Flow.failureOf flow >>= next).Meets P

/-- A postcondition may be kept across a failure if what comes after the failure goes with what came
before, and if a failure may stand for its cause. -/
theorem recoverable_of_append {P : List Event → Ending Unit → Prop} {flow : Flow σ α}
    (h : flow.Meets P)
    (append : ∀ {es es' o o'}, o ≠ .unfinished → P es o → P es' o' → P (es ++ es') o')
    (cause : ∀ {es id c}, P es (.raised (.inAction id c)) → P es (.raised c)) :
    Recoverable P flow := by
  intro β next through failed killed
  refine Flow.failureOf_bind h (fun es _ hes n w => append (by simp) hes (through n w))
    (fun es id c hes => ?_) (fun es e _ hes => hes) fun es hes => hes
  by_cases hc : c.kind = .killed
  · rw [killed id c hc]
    exact Ensures.raise (by rw [List.append_nil]; exact cause hes)
  · exact fun n w => append (by simp) hes (failed id c hc n w)

/-- So may one that does not ask how a run ends. -/
theorem recoverable_of_composes {R : List Event → Prop}
    (hR : Composes fun es (_ : Ending Unit) => R es) {flow : Flow σ α}
    (h : flow.Meets fun es _ => R es) : Recoverable (fun es _ => R es) flow :=
  recoverable_of_append h (fun _ hes hes' => hR.append (o := .returned ()) hes hes') id

namespace Sustains

variable {rules : Rules σ} {P : List Event → Ending Unit → Prop}

theorem requireResume (hP : Sustains rules P) (d : Decision) (message : String) :
    (Recovery.requireResume d message : Flow σ Unit).Meets P := by
  unfold Recovery.requireResume
  split
  · exact hP.pure ()
  · exact Ensures.raise (hP.declines message)

theorem generic (hP : Sustains rules P) (f : ActionFailure) (step : Step) :
    (Recovery.generic rules f step).Meets P := by
  refine hP.bind (hP.logs _ _) fun _ => hP.bind (hP.asks _ f step _) fun decision => ?_
  split
  · exact hP.pure _
  · exact hP.bind_pure (hP.logs _ _) _
  · exact hP.bind_pure (hP.logs _ _) _
  · exact Ensures.raise (hP.declines _)

theorem lowBattery (hP : Sustains rules P) (f : ActionFailure) (step : Step) :
    (Recovery.lowBattery rules f step).Meets P := by
  refine hP.bind (hP.logs _ _) fun _ => hP.bind (hP.asks _ f step _) fun decision => ?_
  exact hP.bind_pure (hP.requireResume _ _) _

theorem connectionLost (hP : Sustains rules P) (f : ActionFailure) (step : Step) :
    (Recovery.connectionLost rules f step).Meets P := by
  refine hP.bind (hP.asks _ f step _) fun decision => ?_
  exact hP.bind_pure (hP.requireResume _ _) _

/-- The fallback of the unlock flow matters only where it is run. -/
theorem unlockRound (hP : Sustains rules P) (step : Step)
    (unlocking : Recoverable P
      (Flow.inside .unlock (rules.actions rules.ctx.device.unlockStep.actions)))
    (fallback : rules.ctx.device.unlockStep.optional = false →
      rules.ctx.device.unlockStep.fallback ≠ [] →
      (Flow.inPart .unlockFallback
        (rules.actions rules.ctx.device.unlockStep.fallback)).Meets P) :
    (Recovery.unlockRound rules step).Meets P := by
  refine unlocking _ (hP.pure _) (fun id c hc => ?_) fun id c hc => if_pos hc
  dsimp only
  -- In order: a kill, unlocking that is not allowed yet, and the three ways to give up.
  split
  · next h => exact absurd h hc
  split
  · refine hP.bind (hP.asks _ _ step _) fun decision => ?_
    exact hP.bind_pure (hP.requireResume _ _) _
  split
  · exact hP.bind_pure (hP.logs _ _) _
  next hoptional =>
  split
  · next hnonempty =>
    refine hP.bind (hP.logs _ _) fun _ => hP.bind_pure (fallback ?_ ?_) _
    · simpa using hoptional
    · simpa using hnonempty
  · exact hP.bind_pure (hP.logs _ _) _

theorem runUnlock (hP : Sustains rules P) (step : Step)
    (unevaluated : ∀ c, Condition.evaluate rules.ctx.device.unlockStep.condition
      rules.ctx.settings.data = .error c → P [] (.raised c))
    (round : (Recovery.unlockRound rules step).Meets P) :
    (Recovery.runUnlock rules step).Meets P := by
  refine Ensures.ofFallible_bind (fun applies _ => ?_) unevaluated
  split
  · exact hP.repeatFrom (fun _ => round) ()
  · exact hP.bind_pure (hP.logs _ _) _

theorem unlock (hP : Sustains rules P) (f : ActionFailure) (step : Step)
    (entered : (Run.emit (.entered .unlock) : Flow σ Unit).Meets P)
    (unlocking : (Recovery.runUnlock rules step).Meets P)
    (left : (Run.emit (.left .unlock) : Flow σ Unit).Meets P) :
    (Recovery.unlock rules f step).Meets P := by
  refine hP.bind (hP.logs _ _) fun _ => hP.bind (hP.asks _ f step _) fun decision => ?_
  refine hP.bind (hP.requireResume _ _) fun _ => hP.bind entered fun _ => ?_
  refine hP.bind unlocking fun r => ?_
  rcases r with _ | f'
  · exact hP.bind_pure left _
  · exact hP.generic f' step

theorem reconnect (hP : Sustains rules P) (f : ActionFailure) (step : Step) (count : Nat)
    (reconnecting : Recoverable P
      (Flow.inPart .reconnect (rules.actions [reconnectAction]))) :
    (Recovery.reconnect rules f step count).Meets P := by
  refine reconnecting _ (hP.bind_pure (hP.logs _ _) _) (fun id c hc => ?_) fun id c hc => if_pos hc
  dsimp only
  rw [if_neg hc]
  exact hP.bind (hP.logs _ _) fun _ => hP.connectionLost f step

/-- A course keeps what its actions keep. -/
theorem course (hP : Sustains rules P) {f : ActionFailure} {step : Step} {a a' : StepAttempt}
    {course : Flow σ Resolution} (h : Course rules f step a course a')
    (killed : f.kind = .killed → P [] (.raised f.cause))
    (fallback : (Flow.inPart .fallback (rules.actions step.fallback)).Meets P)
    (unlocking : (Recovery.unlock rules f step).Meets P)
    (reconnecting : ∀ count, (Recovery.reconnect rules f step count).Meets P) :
    course.Meets P := by
  cases h with
  | killed kind => exact Ensures.raise (killed kind)
  | optional => exact hP.bind_pure (hP.logs _ _) _
  | fallback => exact hP.bind (hP.logs _ _) fun _ => hP.bind_pure fallback _
  | lowBattery => exact hP.lowBattery f step
  | unlock => exact unlocking
  | connectionLost => exact hP.connectionLost f step
  | exhausted => exact hP.bind (hP.logs _ _) fun _ => hP.connectionLost f step
  | reconnect => exact reconnecting _
  | generic => exact hP.generic f step

end Sustains

end Recovery

end Reflash
