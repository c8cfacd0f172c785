import Reflash.Proofs.Escape

set_option autoImplicit false

/-! # Which failures leave a step

The failure of an action ends with the step whose action it is: recovery turns it into another start,
into the end of the step, or into a declined question. Only what stands in for something else has
nobody to recover it, so a failure that leaves a step is one of its fallback or of the fallback of
the unlock flow, just as it was raised there (`FallbackFailure`). An action is therefore the place of
a failure of its substeps only if one of these was involved (`action_fails`). -/

namespace Reflash

open Run

variable {σ α β : Type}

/-! ## Failures of fallbacks -/

section

variable (wf : Workflow σ) (runSteps : List Step → Flow σ Unit)

/-- The failure of an action that left a run of recovery is the one with which the fallback of the
unlock flow ended. `marks` is what was seen before the fallback was entered. -/
inductive UnlockFailure (marks es : List Event) (id : String) (c : Fault) : Prop
  | intro (before fallback : List Event)
    (optional : wf.ctx.device.unlockStep.optional = false)
    (nonempty : wf.ctx.device.unlockStep.fallback ≠ [])
    (marked : marks ⊆ before)
    (replaced : (Flow.actions runSteps wf.table wf.ctx wf.ctx.device.unlockStep.fallback).Leaves
      fallback (.raised (.inAction id c)))
    (events : es = before ++ .entered .unlockFallback :: fallback.map (.within .unlockFallback))

/-- The failure of an action that left a step: the one with which its fallback ended, after its
actions had failed, or the one with which the fallback of the unlock flow ended, after recovery of
the step had entered it. -/
inductive FallbackFailure (s : Step) (es : List Event) (id : String) (c : Fault) : Prop
  | own (before tried fallback : List Event) (text : String) (cause : ActionFailure)
    (line : Signal)
    (optional : s.optional = false)
    (nonempty : s.fallback ≠ [])
    (failed : (Flow.actions runSteps wf.table wf.ctx s.actions).Leaves tried
      (.raised (.inAction cause.id cause.cause)))
    (kind : cause.kind ≠ .killed)
    (replaced : (Flow.actions runSteps wf.table wf.ctx s.fallback).Leaves fallback
      (.raised (.inAction id c)))
    (events : es = before ++ .started text :: (tried ++
      [.failed cause.id cause.cause, .recovery line, .entered .fallback] ++
        fallback.map (.within .fallback)))
  | unlock (h : UnlockFailure wf runSteps [.entered .unlock] es id c)

end

variable {wf : Workflow σ} {runSteps : List Step → Flow σ Unit}

theorem UnlockFailure.prepend {marks marks' es es' : List Event} {id : String} {c : Fault}
    (hmarks : marks ⊆ es' ++ marks') (h : UnlockFailure wf runSteps marks' es id c) :
    UnlockFailure wf runSteps marks (es' ++ es) id c := by
  obtain ⟨before, fallback, optional, nonempty, marked, replaced, rfl⟩ := h
  refine ⟨es' ++ before, fallback, optional, nonempty, fun e he => ?_, replaced, by simp⟩
  rcases List.mem_append.mp (hmarks he) with he | he
  · exact List.mem_append_left _ he
  · exact List.mem_append_right _ (marked he)

theorem FallbackFailure.prepend {s : Step} {es es' : List Event} {id : String} {c : Fault}
    (h : FallbackFailure wf runSteps s es id c) :
    FallbackFailure wf runSteps s (es' ++ es) id c := by
  cases h with
  | own before tried fallback text cause line optional nonempty failed kind replaced events =>
    exact .own (es' ++ before) tried fallback text cause line optional nonempty failed kind replaced
      (by simp [events])
  | unlock h => exact .unlock (h.prepend (List.subset_append_right _ _))

/-! ## Runs that no failure of an action leaves -/

/-- Only actions end with the failure of an action: no pause does, and no question. -/
structure Workflow.Candid (wf : Workflow σ) : Prop where
  pauses : wf.ctx.host.pause.Ensures fun _ o => ∀ id c, o ≠ .raised (.inAction id c)
  decides : ∀ request, (wf.ctx.host.decide request).Ensures fun _ o =>
    ∀ id c, o ≠ .raised (.inAction id c)

theorem Workflow.Orderly.candid (hwf : wf.Orderly) : wf.Candid where
  pauses := Ensures.mono hwf.pauses fun _ _ h id c => h (.inAction id c)
  decides request := by
    refine Ensures.mono (hwf.decides request) fun _ _ h id c hc => ?_
    obtain ⟨message, hmessage⟩ := h _ hc
    cases hmessage

/-- The run does not end with the failure of an action. -/
def NoFailure (_ : List Event) (o : Ending Unit) : Prop :=
  ∀ id c, o ≠ .raised (.inAction id c)

theorem NoFailure.composes : Composes NoFailure where
  nil _ _ h := by cases h
  unfinished _ _ h := by cases h
  append _ h := h

theorem NoFailure.raise {c : Fault} (h : ∀ id c', c ≠ .inAction id c') :
    (Run.raise c : Flow σ α).Meets NoFailure :=
  Ensures.raise fun id c' hc => h id c' (Ending.raised.inj hc)

theorem Fault.ne_inAction_of_killed {c : Fault} (h : c.kind = .killed) :
    ∀ id c', c ≠ .inAction id c' := by
  rintro id c' rfl
  cases h

/-- A failure that is looked at does not leave the run by itself. -/
theorem NoFailure.recoverable (flow : Flow σ α) : Recovery.Recoverable NoFailure flow := by
  intro β next through failed killed
  refine Flow.failureOf_bind (P := fun _ _ => True) (fun _ _ => trivial) (fun es _ _ => through)
    (fun es id c _ => ?_) (fun es c hc _ => ?_) fun es _ id c h => by cases h
  · by_cases hc : c.kind = .killed
    · rw [killed id c hc]
      exact NoFailure.raise (Fault.ne_inAction_of_killed hc)
    · exact failed id c hc
  · exact fun id c' h => hc id c' (Ending.raised.inj h)

namespace Recovery

theorem log_noFailure (level : Level) (message : String) :
    (log level message : Flow σ Unit).Meets NoFailure :=
  fun n w id c h => by cases h

variable (hwf : wf.Candid)
include hwf

theorem ask_noFailure (prompt : Prompt) (f : ActionFailure) (step : Step)
    (data : List (String × Value)) :
    (ask (wf.rules runSteps) prompt f step data).Meets NoFailure := by
  have hdecides (request : PromptRequest) : (wf.ctx.host.decide request).Ensures fun _ o =>
      ∀ c, o = .raised c → ∀ id c', c ≠ .inAction id c' :=
    Ensures.mono (hwf.decides request) fun _ _ h c hc id c' hc' => h id c' (hc.trans (by rw [hc']))
  refine ask_ensures (hostAsk_raises hdecides prompt data _ _ _) (fun es d _ id c h => by cases h)
    (fun es c h id c' hc => ?_) fun es _ id c h => by cases h
  rcases h c rfl with ⟨message, rfl⟩ | ⟨-, hne⟩
  · cases hc
  · exact hne id c' (Ending.raised.inj hc)

theorem sustains_noFailure (runSteps : List Step → Flow σ Unit) :
    Sustains (wf.rules runSteps) NoFailure where
  toComposes := NoFailure.composes
  logs := log_noFailure
  asks := ask_noFailure hwf
  declines message id c h := by cases h

end Recovery

/-! ## The unlock flow -/

/-- The failures of actions that leave the run are those of the fallback of the unlock flow. -/
def UnlockFails (wf : Workflow σ) (runSteps : List Step → Flow σ Unit) (marks es : List Event)
    (o : Ending Unit) : Prop :=
  ∀ id c, o = .raised (.inAction id c) → UnlockFailure wf runSteps marks es id c

/-- The failures of actions that leave a course of recovery. -/
def CourseFails (wf : Workflow σ) (runSteps : List Step → Flow σ Unit) (f : ActionFailure)
    (s : Step) (es : List Event) (o : Ending Unit) : Prop :=
  ∀ id c, o = .raised (.inAction id c) →
    (s.optional = false ∧ s.fallback ≠ [] ∧ f.kind ≠ .killed ∧ ∃ line fallback,
      (Flow.actions runSteps wf.table wf.ctx s.fallback).Leaves fallback
        (.raised (.inAction id c)) ∧
      es = .recovery line :: .entered .fallback :: fallback.map (.within .fallback)) ∨
    UnlockFailure wf runSteps [.entered .unlock] es id c

theorem UnlockFails.composes (wf : Workflow σ) (runSteps : List Step → Flow σ Unit)
    (marks : List Event) : Composes (UnlockFails wf runSteps marks) where
  nil _ _ h := by cases h
  unfinished _ _ h := by cases h
  append _ h id c ho := (h id c ho).prepend (List.subset_append_right _ _)

theorem UnlockFails.of_noFailure {marks : List Event} {flow : Flow σ α}
    (h : flow.Meets NoFailure) : flow.Meets (UnlockFails wf runSteps marks) :=
  Ensures.mono h fun _ _ hno id c ho => absurd ho (hno id c)

theorem UnlockFails.recoverable (flow : Flow σ α) :
    Recovery.Recoverable (UnlockFails wf runSteps []) flow := by
  intro β next through failed killed
  refine Flow.failureOf_bind (P := fun _ _ => True) (fun _ _ => trivial)
    (fun es _ _ n w id c ho => ?_) (fun es id c _ n w id' c' ho => ?_)
    (fun es c hc _ id c' ho => ?_) fun es _ id c h => by cases h
  · exact (through n w id c ho).prepend (List.nil_subset _)
  · by_cases hc : c.kind = .killed
    · rw [killed id c hc] at ho
      cases ho
      cases hc
    · exact (failed id c hc n w id' c' ho).prepend (List.nil_subset _)
  · exact absurd (Ending.raised.inj ho) (hc id c')

namespace Recovery

/-- A step that is replaced by its fallback lets out the failure of the fallback. -/
theorem fallback_fails {f : ActionFailure} {step : Step} (kind : f.kind ≠ .killed)
    (optional : step.optional = false) (nonempty : step.fallback ≠ []) (level : Level)
    (message : String) :
    (do log level message
        Flow.inPart .fallback ((wf.rules runSteps).actions step.fallback)
        return .done : Flow σ Resolution).Meets (CourseFails wf runSteps f step) := by
  have falling : (Flow.inPart .fallback ((wf.rules runSteps).actions step.fallback)).Ensures
      fun es o => ∀ c, o = .raised c → ∃ fallback,
        (Flow.actions runSteps wf.table wf.ctx step.fallback).Leaves fallback (.raised c) ∧
        es = .entered .fallback :: fallback.map (.within .fallback) := by
    refine Flow.inPart_ensures (Ensures.leaves _) (fun es _ _ c h => ?_) (fun es c hleaves c' h => ?_)
      fun es _ c h => ?_
    · cases h
    · cases h
      exact ⟨es, hleaves, rfl⟩
    · cases h
  rw [log_eq]
  refine Ensures.emit_bind (Ensures.bind falling (fun es _ _ => ?_) (fun es c h id c' ho => ?_)
    fun es _ id c ho => ?_)
  · exact Ensures.pure fun id c ho => by cases ho
  · cases ho
    obtain ⟨fallback, hleaves, rfl⟩ := h _ rfl
    exact .inl ⟨optional, nonempty, kind, _, fallback, hleaves, rfl⟩
  · cases ho

variable (hwf : wf.Candid)
include hwf

theorem sustains_unlockFails (runSteps : List Step → Flow σ Unit) (marks : List Event) :
    Sustains (wf.rules runSteps) (UnlockFails wf runSteps marks) where
  toComposes := UnlockFails.composes wf runSteps marks
  logs level message := UnlockFails.of_noFailure (log_noFailure level message)
  asks prompt f step data := UnlockFails.of_noFailure (ask_noFailure hwf prompt f step data)
  declines message id c h := by cases h

/-- The unlock flow lets out no failure but that of its fallback. -/
theorem runUnlock_fails (step : Step) :
    (runUnlock (wf.rules runSteps) step).Meets (UnlockFails wf runSteps []) := by
  have hP := sustains_unlockFails hwf runSteps []
  refine hP.runUnlock step (fun c hc id c' h => ?_) (hP.unlockRound step
    (UnlockFails.recoverable _) fun optional nonempty => ?_)
  · cases Condition.eval_error _ _ hc
    cases h
  · refine Flow.inPart_ensures (Ensures.leaves _) (fun es _ _ id c h => ?_)
      (fun es c hleaves id c' h => ?_) fun es _ id c h => ?_
    · cases h
    · cases h
      exact ⟨[], es, optional, nonempty, List.nil_subset _, hleaves, rfl⟩
    · cases h

theorem unlock_fails (f : ActionFailure) (step : Step) :
    (unlock (wf.rules runSteps) f step).Meets (UnlockFails wf runSteps [.entered .unlock]) := by
  have hP := sustains_unlockFails hwf runSteps [.entered .unlock]
  have hQ := sustains_unlockFails hwf runSteps []
  refine hP.bind (hP.logs _ _) fun _ => hP.bind (hP.asks _ f step _) fun decision => ?_
  refine hP.bind (hP.requireResume _ _) fun _ => ?_
  -- From here on the entry of the unlock flow is among the events before its fallback.
  refine Ensures.emit_bind fun n w id c ho => ?_
  refine UnlockFailure.prepend (List.subset_append_left [.entered .unlock] [])
    ((hQ.bind (runUnlock_fails hwf step) fun r => ?_) n w id c ho)
  rcases r with _ | f'
  · exact hQ.bind_pure (Ensures.emit fun id c h => by cases h) _
  · exact hQ.generic f' step

theorem course_fails {f : ActionFailure} {step : Step} {a a' : StepAttempt}
    {course : Flow σ Resolution} (h : Course (wf.rules runSteps) f step a course a') :
    course.Meets (CourseFails wf runSteps f step) := by
  have hP := sustains_noFailure hwf runSteps
  have never {course : Flow σ Resolution} (h : course.Meets NoFailure) :
      course.Meets (CourseFails wf runSteps f step) :=
    Ensures.mono h fun _ _ hno id c ho => absurd ho (hno id c)
  cases h with
  | killed kind => exact never (NoFailure.raise (Fault.ne_inAction_of_killed kind))
  | optional => exact never (hP.bind_pure (hP.logs _ _) _)
  | fallback kind optional nonempty => exact fallback_fails kind optional nonempty _ _
  | lowBattery => exact never (hP.lowBattery f step)
  | unlock => exact Ensures.mono (unlock_fails hwf f step) fun _ _ h id c ho => .inr (h id c ho)
  | connectionLost => exact never (hP.connectionLost f step)
  | exhausted => exact never (hP.bind (hP.logs _ _) fun _ => hP.connectionLost f step)
  | reconnect => exact never (hP.reconnect f step _ (NoFailure.recoverable _))
  | generic => exact never (hP.generic f step)

end Recovery

/-! ## Steps -/

/-- The failures of actions that leave a step are those of its fallbacks. -/
def StepFails (wf : Workflow σ) (runSteps : List Step → Flow σ Unit) (s : Step) (es : List Event)
    (o : Ending Unit) : Prop :=
  ∀ id c, o = .raised (.inAction id c) → FallbackFailure wf runSteps s es id c

theorem StepFails.continues {s : Step} {a : StepAttempt} {es es' : List Event}
    {o : Ending (StepAttempt ⊕ Unit)}
    (h : Ensures.Continues (fun _ => StepFails wf runSteps s) a es' o) :
    Ensures.Continues (fun _ => StepFails wf runSteps s) a (es ++ es') o := by
  rcases o with (_ | _) | _ | _
  · intro es'' o hes'' id c ho
    exact (hes'' id c ho).prepend
  all_goals exact fun id c ho => (h id c ho).prepend

namespace Workflow

theorem start_fails (hwf : wf.Candid) (s : Step) (a : StepAttempt) :
    (wf.start runSteps s a).Ensures
      (Ensures.Continues (fun _ => StepFails wf runSteps s) a) := by
  have pausing : (Flow.ofRecovery wf.ctx.host.pause).Ensures fun _ o =>
      ∀ id c, o ≠ .raised (.inAction id c) :=
    Ensures.mapEvents hwf.pauses
  have describing {es : List Event} {c : Fault} (hc : s.describe = .error c) :
      StepFails wf runSteps s es (.raised c) := by
    intro id c' ho
    rcases Step.describe_error hc with rfl | rfl <;> cases ho
  refine Ensures.bind pausing (fun pre _ _ => ?_)
    (fun es e h id c ho => absurd (congrArg Ending.raised (Ending.raised.inj ho)) (h id c))
    fun es _ id c ho => by cases ho
  refine Ensures.mono (P := Ensures.Continues (fun _ => StepFails wf runSteps s) a) ?_
    fun es o h => StepFails.continues h
  refine Ensures.ofFallible_bind (fun applies _ => ?_) fun c hc id c' ho => ?_
  · split
    · refine Ensures.ofFallible_bind (fun text _ => ?_) fun c hc => describing hc
      refine Ensures.emit_bind (Flow.failureOf_bind (Ensures.leaves _) (fun es _ _ => ?_)
        (fun tried id c hfailed => ?_) (fun es c hc _ id c' ho => ?_) fun es _ id c ho => ?_)
      · exact Ensures.pure fun id c ho => by cases ho
      · obtain ⟨course, a', hcourse, heq⟩ :=
          Recovery.handle_course (wf.rules runSteps) ⟨id, c⟩ s a
        have fails {es : List Event} {o : Ending Unit}
            (h : CourseFails wf runSteps ⟨id, c⟩ s es o) :
            StepFails wf runSteps s (.started text :: (tried ++ .failed id c :: es)) o := by
          intro id' c' ho
          rcases h id' c' ho with ⟨optional, nonempty, kind, line, fallback, hleaves, rfl⟩ | h
          · exact .own [] tried fallback text ⟨id, c⟩ line optional nonempty hfailed kind hleaves
              (by simp)
          · have hmarks : [Event.entered .unlock] ⊆
                (.started text :: (tried ++ [.failed id c])) ++ [.entered .unlock] :=
              List.subset_append_right _ _
            simpa using FallbackFailure.unlock (s := s) (h.prepend hmarks)
        dsimp only
        rw [heq]
        simp only [bind_assoc, pure_bind]
        refine Ensures.emit_bind (Ensures.bind (Recovery.course_fails hwf hcourse)
          (fun es resolution h => ?_) (fun es c h => fails h) fun es h => fails h)
        cases resolution with
        | done => exact Ensures.pure fun id c ho => by cases ho
        | replay =>
          -- The failure of this start is done with; a later start may let out another one.
          refine Ensures.ofFallible_bind (fun text' _ => ?_) fun c hc => describing hc
          refine Ensures.emit_bind (Ensures.pure fun es' o h id c ho => ?_)
          exact (h id c ho).prepend
      · exact absurd (Ending.raised.inj ho) (hc id c')
      · cases ho
    · refine Ensures.ofFallible_bind (fun text _ => ?_) fun c hc => describing hc
      exact Ensures.emit_bind (Ensures.pure fun id c ho => by cases ho)
  · cases Condition.eval_error _ _ hc
    cases ho

theorem step_fails (hwf : wf.Candid) (runSteps : List Step → Flow σ Unit) (s : Step) :
    (wf.step runSteps s).Ensures (StepFails wf runSteps s) :=
  Ensures.repeatFrom (fun _ id c ho => by cases ho) (start_fails hwf s) {}

/-- The ways in which the steps below a step are run: as deep as the budget says, or to a given
depth. -/
inductive Nesting (wf : Workflow σ) : (List Step → Flow σ Unit) → Prop
  | full : Nesting wf wf.runSteps
  | upTo (depth : Nat) : Nesting wf (wf.runStepsTo depth)

/-- A fallback, of a step or of the unlock flow, was entered. -/
def FallsBack (es : List Event) : Prop :=
  ∃ part, (part = .fallback ∨ part = .unlockFallback) ∧ .entered part ∈ es

theorem fallsBack_of_failure {s : Step} {es : List Event} {id : String}
    {c : Fault} (h : FallbackFailure wf runSteps s es id c) : FallsBack es := by
  cases h with
  | own before tried fallback text cause line optional nonempty failed kind replaced events =>
    exact ⟨.fallback, .inl rfl, by simp [events]⟩
  | unlock h =>
    obtain ⟨before, fallback, _, _, _, _, rfl⟩ := h
    exact ⟨.unlockFallback, .inr rfl, by simp⟩

theorem runStepsTo_fallsBack (hwf : wf.Orderly) (depth : Nat) (ss : List Step) :
    (wf.runStepsTo depth ss).Ensures fun es o =>
      ∀ id c, o = .raised (.inAction id c) → FallsBack es := by
  have hP : Composes fun es o => ∀ id c, o = .raised (.inAction id c) → FallsBack es := by
    refine ⟨fun _ _ h => (by cases h), fun _ _ h => (by cases h), fun _ h id c ho => ?_⟩
    obtain ⟨part, hpart, hmem⟩ := h id c ho
    exact ⟨part, hpart, List.mem_append_right _ hmem⟩
  cases depth with
  | zero => exact Ensures.unfinished fun _ _ h => by cases h
  | succ depth =>
    -- No induction is needed: whatever happens below a step, it lets out only its own fallbacks.
    refine (hP.each fun s _ => ?_).mono fun es o h id c ho => h id c (by rw [ho]; rfl)
    refine (step_fails hwf.candid _ s).mono fun es o h id c ho => ?_
    exact fallsBack_of_failure (h id c (Ending.forget_eq_raised ho))

theorem Nesting.fallsBack (hwf : wf.Orderly) (h : wf.Nesting runSteps) (ss : List Step) :
    (runSteps ss).Ensures fun es o => ∀ id c, o = .raised (.inAction id c) → FallsBack es := by
  cases h with
  | full => exact Ensures.withBudget fun depth => runStepsTo_fallsBack hwf depth ss
  | upTo depth => exact runStepsTo_fallsBack hwf depth ss

theorem Nesting.ends (hwf : wf.Orderly) (h : wf.Nesting runSteps) (ss : List Step)
    (hss : ∀ s ∈ ss, s.Ready) :
    (runSteps ss).Meets (Ends wf.unlockApplies Event.bareKill?) := by
  cases h with
  | full => exact Ensures.withBudget fun depth => runStepsTo_ends hwf depth hss
  | upTo depth => exact runStepsTo_ends hwf depth hss

/-- A failure of an action is its own, before there are substeps, or comes out of a fallback that
its substeps turned to. -/
theorem action_fails (hwf : wf.Orderly) (hnesting : wf.Nesting runSteps) (a : Action) :
    (Flow.action runSteps wf.table wf.ctx a).Ensures fun es o =>
      ∀ id c, o = .raised (.inAction id c) →
        (id = a.id.text ∧ .entered .substeps ∉ es) ∨
        ∃ part, (part = .fallback ∨ part = .unlockFallback) ∧
          .within .substeps (.entered part) ∈ es := by
  have called {es : List Event} (h : ∀ e ∈ es, e.OfCall) : .entered .substeps ∉ es :=
    fun he => h _ he
  unfold Flow.action
  split
  · next e he =>
    refine Flow.refuse_ensures (fun id hunknown id' c ho => ?_) fun hother id c ho => ?_
    · -- What is unknown bears the text of the action.
      subst hunknown
      rcases Flow.dispatch_error he with h | ⟨-, h⟩ <;> cases h
      cases ho
      exact .inl ⟨rfl, by simp⟩
    · rcases Flow.dispatch_error he with rfl | ⟨-, rfl⟩
      · exact absurd rfl (hother _)
      · cases ho
  next d hd =>
  -- Before there are substeps, a failure bears the name of the action.
  have calling : ((Flow.callHandler wf.table wf.ctx d).rescue fun e =>
      Run.raise (Flow.asFailureOf d.id e)).Ensures fun es o =>
      .entered .substeps ∉ es ∧ ∀ id c, o = .raised (.inAction id c) → id = a.id.text := by
    refine Ensures.rescue (Flow.callHandler_emits wf.table wf.ctx d) (fun es ss h => ?_)
      (fun es e h => Ensures.raise ⟨by simpa using called h, fun id c ho => ?_⟩) fun es h => ?_
    · exact ⟨called h, fun id c ho => by cases ho⟩
    · cases e <;> cases ho <;> exact Flow.dispatch_id hd
    · exact ⟨called h, fun id c ho => by cases ho⟩
  refine Ensures.bind calling (fun es ss h => ?_) (fun es c h id c' ho => ?_)
    fun es _ id c ho => by cases ho
  · split
    · exact Ensures.pure fun id c ho => by cases ho
    · refine Flow.inPart_ensures (hnesting.fallsBack hwf ss) (fun es _ _ id c ho => by cases ho)
        (fun es' c h id c' ho => ?_) fun es _ id c ho => by cases ho
      obtain ⟨part, hpart, hmem⟩ := h id c' (by rw [ho])
      refine .inr ⟨part, hpart, List.mem_append_right _ (List.mem_cons_of_mem _ ?_)⟩
      exact List.mem_map_of_mem hmem
  · exact .inl ⟨h.2 id c' (by rw [Ending.raised.inj ho]), h.1⟩

/-- What leaves a step, and what an action leaves to its step, where it can be said whether the unlock
flow applies. A fault that leaves a step is a declined question, a kill, or exactly the failure with
which a fallback ended that stood in for the step or for the unlock flow. The failure of an action is
its own, or it comes out of a fallback that its substeps turned to: any other failure of the substeps
ends below. -/
theorem step_escapes {wf : Workflow σ} {runSteps : List Step → Flow σ Unit} (hwf : wf.Orderly)
    (hunlock : ∃ b, wf.unlockApplies = .ok b) (hnesting : wf.Nesting runSteps) {s : Step}
    (hs : s.Ready) (n : Nat) (w : σ) :
    (∀ c, (wf.step runSteps s n w).ending = .raised c →
      (∃ message, c = .aborted message) ∨ c.kind = .killed ∨
      ∃ id cause, c = .inAction id cause ∧
        FallbackFailure wf runSteps s (wf.step runSteps s n w).events id cause) ∧
    ∀ a ∈ s.actions, ∀ n w id c,
      (Flow.action runSteps wf.table wf.ctx a n w).ending = .raised (.inAction id c) →
      (id = a.id.text ∧
        .entered .substeps ∉ (Flow.action runSteps wf.table wf.ctx a n w).events) ∨
      ∃ part, (part = .fallback ∨ part = .unlockFallback) ∧
        .within .substeps (.entered part) ∈
          (Flow.action runSteps wf.table wf.ctx a n w).events := by
  refine ⟨fun c hc => ?_, fun a _ n w id c ho => action_fails hwf hnesting a n w id c ho⟩
  have hends := step_ends hwf (hnesting.ends hwf) hs n w
  cases hends.reason c (by rw [hc]; rfl) with
  | declined message => exact .inl ⟨message, rfl⟩
  | failed id cause h =>
    exact .inr (.inr ⟨id, cause, rfl, step_fails hwf.candid runSteps s n w id cause hc⟩)
  | killed _ h =>
    obtain ⟨e, _, hk⟩ := h
    exact .inr (.inl (Event.kind_of_kill? (Event.kill?_of_bareKill? hk)))
  | stuck _ happlies h =>
    obtain ⟨b, hb⟩ := hunlock
    cases hb.symm.trans happlies

/-- A fallback that fails lets its own failure out, and not that of the action it stood in for. -/
theorem fallback_failure_escapes :
    let wf : Workflow Unit :=
      .plain {} [("op", some fun _ _ => Run.raise (.failure .noDevice "gone")),
        ("instead", some fun _ _ => Run.raise (.failure .generic "broken"))]
    let step : Step := {
      actions := [.named "t:op"]
      fallback := [.named "t:instead"]
      raw := [(.str "actions", .null)] }
    (wf.step wf.runSteps step 1 ()).ending =
      .raised (.inAction "t:instead" (.failure .generic "broken")) ∧
    FallbackFailure wf wf.runSteps step (wf.step wf.runSteps step 1 ()).events "t:instead"
      (.failure .generic "broken") := by
  intro wf step
  have horderly : wf.Orderly := by
    refine Orderly.plain fun entry hentry handler hhandler => ?_
    simp only [List.mem_cons, List.not_mem_nil, or_false] at hentry
    rcases hentry with rfl | rfl
    all_goals
      cases hhandler
      exact ⟨_, rfl, rfl⟩
  have hunlock : wf.unlockApplies = .ok true := by cbv
  have hstep : step.Ready :=
    Step.Ready.unconditional rfl (by cbv : step.describe = .ok _) (by cbv)
  have hraised : (wf.step wf.runSteps step 1 ()).ending =
      .raised (.inAction "t:instead" (.failure .generic "broken")) := by cbv
  refine ⟨hraised, ?_⟩
  rcases (step_escapes horderly ⟨true, hunlock⟩ .full hstep 1 ()).1 _ hraised with
    ⟨_, h⟩ | h | ⟨id, cause, h, hfallback⟩
  · cases h
  · cases h
  · cases h
    exact hfallback

end Workflow

end Reflash
