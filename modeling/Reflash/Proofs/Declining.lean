import Reflash.Proofs.Kill

set_option autoImplicit false

/-! # A declined question of a handler ends a run

Where a handler takes an answer for the end of the run, it raises that the user declined. Such a fault
is no failure of an action, so nothing looks at it on its way out: neither recovery of the step nor
anything that stands in for it, at whatever depth (`runStepsTo_declines`). `DeclinesEnd` says so of the
events of a run, as `KillsEnd` does of a kill. -/

namespace Reflash

open Run

variable {σ α β : Type}

namespace Event

/-- The fault with which the call of a handler ended, at whatever depth. -/
def raise? : Event → Option Fault
  | raised cause => some cause
  | within _ e => e.raise?
  | _ => none

/-- A handler, at whatever depth, raised that the user declined. -/
def Declines (e : Event) (message : String) : Prop :=
  e.raise? = some (.aborted message)

/-- What handlers raise of the kind of a kill is one. -/
theorem kill?_of_raise? {e : Event} {c : Fault} (h : e.raise? = some c) (kind : c.kind = .killed) :
    e.kill? = some c := by
  induction e with
  | raised cause =>
    cases h
    exact if_pos kind
  | within _ e ih => exact ih h
  | _ => cases h

end Event

/-- What a declined question of a handler means for the run that it is part of: the run ends by it, and
nothing is called or asked on the way. -/
structure DeclinesEnd (es : List Event) (o : Ending Unit) : Prop where
  quiet : es.Pairwise fun e e' => ∀ message, e.Declines message → e'.Quiet
  carried : ∀ e ∈ es, ∀ message, e.Declines message → o = .raised (.aborted message)

namespace DeclinesEnd

variable {es es' : List Event} {o : Ending Unit}

theorem nil : DeclinesEnd [] o where
  quiet := List.Pairwise.nil
  carried := by simp

/-- Before anything was declined anything may happen. -/
theorem append (h : ∀ e ∈ es, ∀ message, ¬e.Declines message) (h' : DeclinesEnd es' o) :
    DeclinesEnd (es ++ es') o where
  quiet := by
    refine List.pairwise_append.mpr ⟨?_, h'.quiet, fun e he _ _ message hd => absurd hd (h e he message)⟩
    exact List.pairwise_of_forall_mem_list fun e he _ _ message hd => absurd hd (h e he message)
  carried e he message hd := by
    rcases List.mem_append.mp he with he | he
    · exact absurd hd (h e he message)
    · exact h'.carried e he message hd

theorem of_none (h : ∀ e ∈ es, ∀ message, ¬e.Declines message) : DeclinesEnd es o := by
  rw [← List.append_nil es]
  exact nil.append h

/-- A run that does not end by it has seen nothing declined. -/
theorem none_of_ne (h : DeclinesEnd es o) (ho : ∀ message, o ≠ .raised (.aborted message)) :
    ∀ e ∈ es, ∀ message, ¬e.Declines message :=
  fun e he message hd => ho message (h.carried e he message hd)

theorem composes : Composes DeclinesEnd where
  nil := nil
  unfinished := nil
  append h h' := h'.append (h.none_of_ne fun _ ho => by cases ho)

theorem ofFallible (x : Fallible α) : (liftM x : Flow σ α).Meets DeclinesEnd :=
  Ensures.ofFallible (fun _ _ => nil) fun _ _ => nil

theorem of_emits {P : Event → Prop} {r : Flow σ α} (hr : r.Emits P)
    (h : ∀ e, P e → ∀ message, ¬e.Declines message) : r.Meets DeclinesEnd :=
  Ensures.mono hr fun _ _ hes => of_none fun e he => h e (hes e he)

theorem emit {e : Event} (h : ∀ message, ¬e.Declines message) :
    (Run.emit e : Flow σ Unit).Meets DeclinesEnd :=
  Ensures.emit (of_none (by simpa using h))

theorem inside {part : Part} {flow : Flow σ α} (hf : flow.Meets DeclinesEnd) :
    (Flow.inside part flow).Meets DeclinesEnd := by
  refine Flow.inside_ensures (Ensures.mono hf fun es o h => ⟨List.pairwise_map.mpr h.quiet, ?_⟩)
  simp only [List.mem_map, forall_exists_index, and_imp, forall_apply_eq_imp_iff₂]
  exact h.carried

theorem inPart {part : Part} {flow : Flow σ α} (hf : flow.Meets DeclinesEnd) :
    (Flow.inPart part flow).Meets DeclinesEnd := by
  refine composes.bind (emit fun _ h => by cases h) fun _ => composes.bind (inside hf) fun a => ?_
  exact composes.bind (emit fun _ h => by cases h) fun _ => composes.pure a

/-- What was declined is no failure of an action, so nobody looks at it. -/
theorem failureOf_bind {flow : Flow σ α} {next : Option (String × Fault) → Flow σ β}
    (hf : flow.Meets DeclinesEnd) (hnext : ∀ r, (next r).Meets DeclinesEnd) :
    (Flow.failureOf flow >>= next).Meets DeclinesEnd := by
  refine Flow.failureOf_bind hf (fun es a h n w => ?_) (fun es id c h n w => ?_)
    (fun es e _ h => h) fun es h => h
  · exact (hnext _ n w).append (h.none_of_ne fun _ ho => by cases ho)
  · exact (hnext _ n w).append (h.none_of_ne fun _ ho => by cases ho)

theorem recoverable {flow : Flow σ α} (hf : flow.Meets DeclinesEnd) :
    Recovery.Recoverable DeclinesEnd flow := by
  intro β next through failed killed
  refine failureOf_bind hf fun r => ?_
  rcases r with _ | ⟨id, c⟩
  · exact through
  · by_cases hc : c.kind = .killed
    · rw [killed id c hc]
      exact Ensures.raise nil
    · exact failed id c hc

end DeclinesEnd

/-! ## Every part of a workflow ends so -/

namespace Recovery

variable {rules : Rules σ}

theorem ask_declines (rules : Rules σ) (prompt : Prompt) (f : ActionFailure) (step : Step)
    (data : List (String × Value)) : (ask rules prompt f step data).Meets DeclinesEnd := by
  have signals (es : List Signal) : ∀ e ∈ es.map Event.recovery, ∀ message, ¬e.Declines message := by
    simp [Event.Declines, Event.raise?]
  refine ask_ensures (R := fun _ _ => True) (fun _ _ => trivial) (fun es d _ => ?_) (fun es e _ => ?_)
    fun es _ => DeclinesEnd.of_none (signals es)
  all_goals
    refine DeclinesEnd.append (signals es) (DeclinesEnd.of_none ?_)
    simp [Event.Declines, Event.raise?]

theorem sustains_declines (rules : Rules σ) : Sustains rules DeclinesEnd where
  toComposes := DeclinesEnd.composes
  logs level message := DeclinesEnd.of_emits (log_emits level message)
    (by rintro _ ⟨s, rfl⟩ _ h; cases h)
  asks := ask_declines rules
  declines _ := DeclinesEnd.nil

theorem handle_declines (hacts : ∀ as, (rules.actions as).Meets DeclinesEnd) (f : ActionFailure)
    (step : Step) (a : StepAttempt) : (handle rules f step a).Meets DeclinesEnd := by
  have hP := sustains_declines rules
  obtain ⟨course, a', hcourse, heq⟩ := handle_course rules f step a
  rw [heq]
  refine hP.bind (DeclinesEnd.emit fun _ h => by cases h) fun _ => hP.bind_pure ?_ _
  refine hP.course hcourse (fun _ => DeclinesEnd.nil) (DeclinesEnd.inPart (hacts _)) ?unlocking
    fun count => hP.reconnect f step count (DeclinesEnd.recoverable (DeclinesEnd.inPart (hacts _)))
  case unlocking =>
    refine hP.unlock f step (DeclinesEnd.emit fun _ h => by cases h) ?_
      (DeclinesEnd.emit fun _ h => by cases h)
    refine hP.runUnlock step (fun _ _ => DeclinesEnd.nil) ?_
    exact hP.unlockRound step (DeclinesEnd.recoverable (DeclinesEnd.inside (hacts _)))
      fun _ _ => DeclinesEnd.inPart (hacts _)

end Recovery

namespace Flow

variable {runSteps : List Step → Flow σ Unit}

/-- What a handler raises is the last that happens in its call, and what the call ends with. -/
theorem callHandler_declines (table : ActionTable σ) (ctx : Context σ) (d : Dispatch) :
    (callHandler table ctx d).Meets DeclinesEnd := by
  have calls (es : List Signal) : ∀ e ∈ .dispatched d.ns d.verb d.payload :: es.map Event.handler,
      ∀ message, ¬e.Declines message := by
    simp [Event.Declines, Event.raise?]
  refine callHandler_ensures (R := fun _ _ => True) (fun _ _ _ _ => trivial)
    (fun _ => DeclinesEnd.nil) (fun es _ _ _ _ => DeclinesEnd.of_none (calls es))
    (fun es _ _ _ _ => DeclinesEnd.of_none (calls es)) (fun es e _ => ?_)
    fun es _ => DeclinesEnd.of_none (calls es)
  rw [← List.cons_append]
  refine DeclinesEnd.append (calls es) ⟨List.pairwise_singleton _ _, ?_⟩
  simp [Event.Declines, Event.raise?]

/-- That the user declined is never made a failure of the action. -/
theorem action_declines (hsteps : ∀ ss, (runSteps ss).Meets DeclinesEnd) (table : ActionTable σ)
    (ctx : Context σ) (a : Action) : (action runSteps table ctx a).Meets DeclinesEnd := by
  unfold action
  split
  · exact refuse_meets (fun _ => DeclinesEnd.nil) _
  next d _ =>
  refine DeclinesEnd.composes.bind ?_ fun steps => ?_
  · refine Ensures.rescue (callHandler_declines table ctx d) (fun es steps h => h)
      (fun es e h => Ensures.raise ?_) fun es h => h
    rw [List.append_nil]
    refine ⟨h.quiet, fun e' he' message hd => ?_⟩
    -- What the handler declined is what the call ended with, and goes on as it is.
    cases h.carried e' he' message hd
    rfl
  · split
    · exact DeclinesEnd.composes.pure _
    · exact DeclinesEnd.inPart (hsteps steps)

theorem actions_declines (hsteps : ∀ ss, (runSteps ss).Meets DeclinesEnd) (table : ActionTable σ)
    (ctx : Context σ) (as : List Action) : (actions runSteps table ctx as).Meets DeclinesEnd :=
  DeclinesEnd.composes.each fun a _ => action_declines hsteps table ctx a

end Flow

namespace Workflow

variable {wf : Workflow σ} {runSteps : List Step → Flow σ Unit}

theorem start_declines (hsteps : ∀ ss, (runSteps ss).Meets DeclinesEnd) (s : Step)
    (a : StepAttempt) : (wf.start runSteps s a).Meets DeclinesEnd := by
  have hP := DeclinesEnd.composes
  have hacts := Flow.actions_declines hsteps wf.table wf.ctx
  have emits (e : Event) (h : e.raise? = none) : (Run.emit e : Flow σ Unit).Meets DeclinesEnd :=
    DeclinesEnd.emit fun _ hd => by cases h.symm.trans hd
  have pausing : (Flow.ofRecovery wf.ctx.host.pause).Meets DeclinesEnd :=
    DeclinesEnd.of_emits (Flow.ofRecovery_emits _) (by rintro _ ⟨s, rfl⟩ _ h; cases h)
  refine hP.bind pausing fun _ => hP.bind (DeclinesEnd.ofFallible _) fun applies => ?_
  split
  · refine hP.bind (DeclinesEnd.ofFallible _) fun text => hP.bind (emits _ rfl) fun _ => ?_
    refine DeclinesEnd.failureOf_bind (hacts s.actions) fun r => ?_
    rcases r with _ | ⟨id, c⟩
    · exact hP.pure _
    · refine hP.bind (Recovery.handle_declines hacts ⟨id, c⟩ s a) fun r => ?_
      rcases r with ⟨_ | _, a'⟩
      · exact hP.pure _
      · exact hP.bind (DeclinesEnd.ofFallible _) fun text => hP.bind_pure (emits _ rfl) _
  · exact hP.bind (DeclinesEnd.ofFallible _) fun text => hP.bind_pure (emits _ rfl) _

theorem runStepsTo_declines (wf : Workflow σ) (depth : Nat) (ss : List Step) :
    (wf.runStepsTo depth ss).Meets DeclinesEnd := by
  induction depth generalizing ss with
  | zero => exact Ensures.unfinished DeclinesEnd.nil
  | succ depth ih =>
    exact DeclinesEnd.composes.each fun s _ =>
      DeclinesEnd.composes.repeatFrom (fun a => start_declines ih s a) {}

theorem runSteps_declines (wf : Workflow σ) (ss : List Step) :
    (wf.runSteps ss).Meets DeclinesEnd :=
  Ensures.withBudget fun n => runStepsTo_declines wf n ss

/-! ## Runs that are ended by a handler -/

/-- A run returns as ended early if a handler raised that the user declined. -/
theorem settle_declines {flow : Flow σ Unit} (hf : flow.Meets DeclinesEnd) :
    (wf.settle flow).Ensures fun es o =>
      (es.Pairwise fun e e' => ∀ message, e.Declines message → e'.Quiet) ∧
      ∀ e ∈ es, ∀ message, e.Declines message → o = .returned false := by
  refine settle_ensures hf (fun es h => ⟨h.quiet, fun e he message hd => ?_⟩)
    (fun es c _ h => ⟨?_, fun _ _ _ _ => rfl⟩) (fun es c hc h => ⟨h.quiet, fun e he message hd => ?_⟩)
    fun es h => ⟨h.quiet, fun e he message hd => ?_⟩
  · cases h.carried e he message hd
  · refine List.pairwise_append.mpr ⟨h.quiet, ?_, fun e _ e' he' _ _ => endEvents_quiet c e' he'⟩
    exact List.pairwise_of_forall_mem_list fun e _ e' he' _ _ => endEvents_quiet c e' he'
  · cases h.carried e he message hd
    cases hc
  · cases h.carried e he message hd

/-- A run returns as ended early if there was a kill, or the kill leaves it. -/
theorem settle_killed {flow : Flow σ Unit} (hf : flow.Meets (KillsEnd Event.bareKill?)) :
    (wf.settle flow).Ensures fun es o => QuietAfterKills es ∧
      ∀ e ∈ es, ∀ c, e.kill? = some c →
        o = .returned false ∨ c.isTermination = false ∧ o = .raised c := by
  refine settle_ensures hf (fun es h => ⟨h.quiet, fun e he c hc => ?_⟩)
    (fun es c _ h => ⟨h.quiet.append_quiet (endEvents_quiet c), fun _ _ _ _ => .inl rfl⟩)
    (fun es c' hc' h => ⟨h.quiet, fun e he c hc => ?_⟩) fun es h => ⟨h.quiet, fun e he c hc => ?_⟩
  · rcases h.carried e he c hc with ho | ⟨id, ho⟩ <;> cases ho
  · rcases h.carried e he c hc with ho | ⟨id, ho⟩ <;> cases ho
    · exact .inr ⟨hc', rfl⟩
    · cases hc'
  · rcases h.carried e he c hc with ho | ⟨id, ho⟩ <;> cases ho

theorem Runs.ensures {P : List Event → Ending Unit → Prop} {Q : List Event → Ending Bool → Prop}
    {flow : Flow σ Bool} (hflow : wf.Runs flow) (hP : Composes P) (fails : ∀ e, P [] (.raised e))
    (hsteps : ∀ ss, (wf.runSteps ss).Meets P)
    (settle : ∀ {flow : Flow σ Unit}, flow.Meets P → (wf.settle flow).Ensures Q) : flow.Ensures Q := by
  cases hflow with
  | steps ss => exact settle (hsteps ss)
  | values listed => exact settle (runValues_meets hP fails hsteps listed)

/-- Where a handler raises `c`, at whatever depth of a run, nothing is called or asked any more. The run
returns as ended early, unless it ends with `c` because no run takes that for its end. -/
def EndsBy (wf : Workflow σ) (c : Fault) : Prop :=
  ∀ flow, wf.Runs flow → ∀ n w before e after, (flow n w).events = before ++ e :: after →
    e.raise? = some c →
      (∀ e' ∈ after, e'.dispatches = false ∧ e'.prompts = false) ∧
        ((flow n w).ending = .returned false ∨
          c.isTermination = false ∧ (flow n w).ending = .raised c)

theorem endsBy_aborted (wf : Workflow σ) (message : String) : wf.EndsBy (.aborted message) := by
  intro flow hflow n w before e after hevents he
  have h := hflow.ensures DeclinesEnd.composes (fun _ => DeclinesEnd.nil) (runSteps_declines wf)
    settle_declines n w
  have hmem : e ∈ (flow n w).events := by simp [hevents]
  refine ⟨?_, .inl (h.2 e hmem message he)⟩
  rw [hevents, List.pairwise_append, List.pairwise_cons] at h
  exact fun e' he' => h.1.2.1.1 e' he' message he

theorem endsBy_of_killed (wf : Workflow σ) {c : Fault} (kind : c.kind = .killed) : wf.EndsBy c := by
  intro flow hflow n w before e after hevents he
  have h := hflow.ensures (KillsEnd.composes _) (fun _ => KillsEnd.nil) (runSteps_kills wf)
    settle_killed n w
  have hmem : e ∈ (flow n w).events := by simp [hevents]
  have hkill := Event.kill?_of_raise? he kind
  refine ⟨?_, h.2 e hmem c hkill⟩
  rw [hevents, QuietAfterKills, List.pairwise_append, List.pairwise_cons] at h
  exact fun e' he' => h.1.2.1.1 e' he' (by simp [hkill])

end Workflow

end Reflash
