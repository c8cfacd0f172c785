import Reflash.Proofs.Kill
import Reflash.Proofs.Reading

set_option autoImplicit false

/-! # What leaves a run as a fault

Steps are run in surroundings that behave (`Workflow.Orderly`): handlers fail in ordinary ways and
return what can be run, the shell answers its questions or cancels them. Then a fault that leaves a
list of steps has one of four reasons (`Reason`): the user declined, an action failed in the place of
a step or of the unlock flow, there was a kill, or nobody can say whether the unlock flow applies.
`Ends` carries the reasons, together with the events that bear them out, through every part of a
workflow (`runStepsTo_ends`). -/

namespace Reflash

open Run

variable {σ α β : Type}

/-! ## Surroundings that behave -/

/-- A step whose conditions were validated and ask about keys only, and which can be shown with the
names of its actions. A step that is read from a document and can be shown has such names
(`Step.named_of_shown`). -/
structure Step.Ready (s : Step) : Prop where
  validated : s.Validated
  legible : s.Legible
  named : s.isNamed = true

/-- A step without a condition only has to be shown, and its actions to be named. -/
theorem Step.Ready.unconditional {s : Step} {text : String} (hc : s.condition = .null)
    (h : s.describe = .ok text) (hnamed : s.isNamed = true) : s.Ready :=
  have hlegible := Step.Legible.unconditional hc h
  ⟨hlegible.1, hlegible.2, hnamed⟩

namespace Workflow

/-- The surroundings of the workflow behave. Handlers raise what they like but cancellations, and
the steps that they return are legible; pauses pass, a question is answered or cancelled, and the
actions of the unlock flow can be named. -/
structure Orderly (wf : Workflow σ) : Prop where
  fails : ∀ id handler payload, wf.table.handler? id = some handler →
    (handler payload wf.ctx).Ensures fun _ o => ∀ c, o = .raised c → c.isOrdinary
  returns : ∀ id handler payload, wf.table.handler? id = some handler →
    (handler payload wf.ctx).Ensures fun _ o => ∀ v, o = .returned v →
      ∀ path ss, Step.listOf path v = .ok ss → ∀ s ∈ ss, s.Legible
  pauses : wf.ctx.host.pause.Ensures fun _ o => ∀ c, o ≠ .raised c
  decides : ∀ request, (wf.ctx.host.decide request).Ensures fun _ o =>
    ∀ c, o = .raised c → ∃ message, c = .cancelled message
  unlockNamed : wf.ctx.device.unlockStep.isNamed = true

/-- The surroundings of a plain workflow behave if all of its handlers fail, in ordinary ways. -/
theorem Orderly.plain {decision : Decision} {verbs : Verbs σ}
    (h : ∀ entry ∈ verbs, ∀ handler, entry.2 = some handler →
      ∃ c, c.isOrdinary ∧ handler = fun _ _ => Run.raise c) :
    (Workflow.plain decision verbs).Orderly := by
  have failing {id : String} {handler : Handler σ}
      (hid : (Workflow.plain decision verbs).table.handler? id = some handler) :
      ∃ c, c.isOrdinary ∧ handler = fun _ _ => Run.raise c := by
    simp only [ActionTable.handler?, Workflow.plain, List.lookup_cons, List.lookup_nil] at hid
    split at hid
    · rw [Option.bind_some, Option.join_eq_some_iff] at hid
      obtain ⟨before, after, hverbs, -⟩ := List.lookup_eq_some_iff.mp hid
      exact h ((ActionTable.splitId id).2, some handler) (by simp [hverbs]) handler rfl
    · cases hid
  refine ⟨fun id handler payload hid => ?_, fun id handler payload hid => ?_, ?_, ?_, rfl⟩
  · obtain ⟨c, hc, rfl⟩ := failing hid
    exact Ensures.raise fun c' h => Ending.raised.inj h ▸ hc
  · obtain ⟨c, hc, rfl⟩ := failing hid
    exact Ensures.raise fun v h => by cases h
  · exact fun n w c h => by cases h
  · exact fun request n w c h => by cases h

/-- Whether the unlock flow applies, if that can be said. -/
def unlockApplies (wf : Workflow σ) : Fallible Bool :=
  Condition.evaluate wf.ctx.device.unlockStep.condition wf.ctx.settings.data

end Workflow

/-! ## Reasons -/

/-- Whether the unlock flow is entered, at whatever depth. -/
def Event.entersUnlock : Event → Bool
  | entered .unlock => true
  | within _ e => e.entersUnlock
  | _ => false

/-- Why a fault leaves a run that was seen as `es`. `applies` is whether the unlock flow applies, and
`bare` says which kills leave the run as they were raised. -/
inductive Reason (applies : Fallible Bool) (bare : Event → Option Fault) (es : List Event) :
    Fault → Prop
  | declined (message : String) : Reason applies bare es (.aborted message)
  | failed (id : String) (c : Fault) (h : c.kind = .killed → ∃ e ∈ es, e.kill? = some c) :
    Reason applies bare es (.inAction id c)
  | killed (c : Fault) (h : ∃ e ∈ es, bare e = some c) : Reason applies bare es c
  | stuck (c : Fault) (hc : applies = .error c) (h : ∃ e ∈ es, e.entersUnlock) :
    Reason applies bare es c

/-- Every fault that leaves the run has its reason, and a run that cannot say whether the unlock flow
applies ends where it would have to. -/
structure Ends (applies : Fallible Bool) (bare : Event → Option Fault) (es : List Event)
    (o : Ending Unit) : Prop where
  reason : ∀ c, o = .raised c → Reason applies bare es c
  stuck : ∀ c, applies = .error c → (∃ e ∈ es, e.entersUnlock) → o = .raised c

namespace Reason

variable {applies : Fallible Bool} {bare bare' : Event → Option Fault} {es es' : List Event}
  {c : Fault}

theorem mono (hes : es ⊆ es') (hbare : ∀ e c, bare e = some c → bare' e = some c)
    (h : Reason applies bare es c) : Reason applies bare' es' c := by
  cases h with
  | declined message => exact .declined message
  | failed id c h =>
    refine .failed id c fun hc => ?_
    obtain ⟨e, he, hk⟩ := h hc
    exact ⟨e, hes he, hk⟩
  | killed _ h =>
    obtain ⟨e, he, hk⟩ := h
    exact .killed c ⟨e, hes he, hbare e c hk⟩
  | stuck _ hc h =>
    obtain ⟨e, he, hk⟩ := h
    exact .stuck c hc ⟨e, hes he, hk⟩

theorem within (part : Part) (hbare : ∀ e c, bare e = some c → bare' (.within part e) = some c)
    (h : Reason applies bare es c) : Reason applies bare' (es.map (.within part)) c := by
  cases h with
  | declined message => exact .declined message
  | failed id c h =>
    refine .failed id c fun hc => ?_
    obtain ⟨e, he, hk⟩ := h hc
    exact ⟨_, List.mem_map_of_mem he, hk⟩
  | killed _ h =>
    obtain ⟨e, he, hk⟩ := h
    exact .killed c ⟨_, List.mem_map_of_mem he, hbare e c hk⟩
  | stuck _ hc h =>
    obtain ⟨e, he, hk⟩ := h
    exact .stuck c hc ⟨_, List.mem_map_of_mem he, hk⟩

end Reason

namespace Ends

variable {applies : Fallible Bool} {bare bare' : Event → Option Fault} {es es' : List Event}
  {o : Ending Unit}

/-- A run that ends without a fault, and has nothing to do with unlocking. -/
theorem quiet (h : ∀ e ∈ es, e.entersUnlock = false) (ho : ∀ c, o ≠ .raised c) :
    Ends applies bare es o where
  reason c hc := absurd hc (ho c)
  stuck _ _ := fun ⟨e, he, hu⟩ => by simp [h e he] at hu

theorem raise {c : Fault} (h : Reason applies bare [] c) : Ends applies bare [] (.raised c) where
  reason c' hc' := by
    cases hc'
    exact h
  stuck _ _ := fun ⟨e, he, _⟩ => by cases he

theorem append (h : ∀ e ∈ es, applies.isOk = false → e.entersUnlock = false)
    (h' : Ends applies bare es' o) : Ends applies bare (es ++ es') o where
  reason c hc := (h'.reason c hc).mono (List.subset_append_right _ _) fun _ _ h => h
  stuck c hc := fun ⟨e, he, hu⟩ => by
    rcases List.mem_append.mp he with he | he
    · simp [h e he (by rw [hc]; rfl)] at hu
    · exact h'.stuck c hc ⟨e, he, hu⟩

theorem not_stuck (h : Ends applies bare es o) (ho : ∀ c, applies = .error c → o ≠ .raised c) :
    ∀ e ∈ es, applies.isOk = false → e.entersUnlock = false := by
  intro e he happlies
  cases hu : e.entersUnlock with
  | false => rfl
  | true =>
    cases hc : applies with
    | ok b => simp [hc, Except.isOk, Except.toBool] at happlies
    | error c => exact absurd (h.stuck c hc ⟨e, he, hu⟩) (ho c hc)

theorem composes (applies : Fallible Bool) (bare : Event → Option Fault) :
    Composes (Ends applies bare) where
  nil := quiet (by simp) (by simp)
  unfinished := quiet (by simp) (by simp)
  append h h' := h'.append (h.not_stuck (by simp))

theorem inside {part : Part} {flow : Flow σ α} (hf : flow.Meets (Ends applies bare))
    (hbare : ∀ e c, bare e = some c → bare' (.within part e) = some c) :
    (Flow.inside part flow).Meets (Ends applies bare') := by
  refine Flow.inside_ensures (Ensures.mono hf fun es o h => ?_)
  refine ⟨fun c hc => (h.reason c hc).within part hbare, fun c hc => ?_⟩
  rintro ⟨e, he, hu⟩
  obtain ⟨e', he', rfl⟩ := List.mem_map.mp he
  exact h.stuck c hc ⟨e', he', hu⟩

theorem emit {e : Event} (h : e.entersUnlock = false) :
    (Run.emit e : Flow σ Unit).Meets (Ends applies bare) :=
  Ensures.emit (quiet (by simpa using h) (by simp))

theorem inPart {part : Part} {flow : Flow σ α} (hf : flow.Meets (Ends applies bare))
    (hbare : ∀ e c, bare e = some c → bare' (.within part e) = some c) (hpart : part ≠ .unlock) :
    (Flow.inPart part flow).Meets (Ends applies bare') := by
  have hP := composes applies bare'
  refine hP.bind (emit ?_) fun _ => hP.bind (inside hf hbare) fun a => hP.bind_pure (emit rfl) _
  cases part <;> first | rfl | contradiction

/-- Actions let out as they were raised no more kills than a step does. -/
theorem ofActions (h : Ends applies Event.bareBelow? es o) :
    Ends applies Event.bareKill? es o where
  reason c hc :=
    (h.reason c hc).mono (List.Subset.refl _) fun _ _ => Event.bareKill?_of_bareBelow?
  stuck := h.stuck

/-- Where the failure of an action is looked at, a kill is passed on, and anything else may be
forgotten. -/
theorem failureOf_bind {wf : Workflow σ} {flow : Flow σ α}
    {next : Option (String × Fault) → Flow σ β}
    (hf : flow.Meets (Ends wf.unlockApplies Event.bareKill?))
    (hkills : flow.Emits fun e => e.bareKill? = e.kill?)
    (through : (next none).Meets (Ends wf.unlockApplies Event.bareKill?))
    (failed : ∀ id c, c.kind ≠ .killed →
      (next (some (id, c))).Meets (Ends wf.unlockApplies Event.bareKill?))
    (killed : ∀ id c, c.kind = .killed → (next (some (id, c))).Ensures fun es o =>
      (∀ e ∈ es, e.entersUnlock = false) ∧ o.forget = .raised c) :
    (Flow.failureOf flow >>= next).Meets (Ends wf.unlockApplies Event.bareKill?) := by
  have hstuck {c : Fault} (hc : wf.unlockApplies = .error c) : c = .mistyped :=
    Condition.eval_error _ _ hc
  refine Flow.failureOf_bind (Ensures.and hf hkills) ?through ?failed ?raised ?unfinished
  case through => exact fun es a h n w => (through n w).append (h.1.not_stuck (by simp))
  case raised => exact fun es e _ h => h.1
  case unfinished => exact fun es h => h.1
  case failed =>
    intro es id c ⟨h, hk⟩
    -- What keeps the unlock flow from being run is no failure of an action.
    have hno := h.not_stuck fun c' hc' ho => by
      cases hstuck hc'
      cases ho
    by_cases hc : c.kind = .killed
    · -- A kill is among the events, and leaves the run as the event tells.
      intro n w
      obtain ⟨hplain, ho⟩ := killed id c hc n w
      have hreason : Reason wf.unlockApplies Event.bareKill? es c := by
        cases h.reason _ rfl with
        | failed _ _ h =>
          obtain ⟨e, he, hke⟩ := h hc
          exact .killed c ⟨e, he, (hk e he).trans hke⟩
        | killed _ h =>
          obtain ⟨e, _, hke⟩ := h
          cases Event.kind_of_kill? (Event.kill?_of_bareKill? hke)
        | stuck _ hc' _ => cases hstuck hc'
      refine ⟨fun c' hc' => ?_, fun c' hc' => ?_⟩
      · cases ho.symm.trans hc'
        exact hreason.mono (List.subset_append_left _ _) fun _ _ h => h
      · rintro ⟨e, he, hu⟩
        rcases List.mem_append.mp he with he | he
        · simp [hno e he (by rw [hc']; rfl)] at hu
        · simp [hplain e he] at hu
    · exact fun n w => (failed id c hc n w).append hno

theorem recoverable {wf : Workflow σ} {flow : Flow σ α}
    (hf : flow.Meets (Ends wf.unlockApplies Event.bareKill?))
    (hkills : flow.Emits fun e => e.bareKill? = e.kill?) :
    Recovery.Recoverable (Ends wf.unlockApplies Event.bareKill?) flow := by
  intro β next through failed killed
  refine failureOf_bind hf hkills through failed fun id c hc => ?_
  rw [killed id c hc]
  exact Ensures.raise ⟨by simp, rfl⟩

end Ends

/-! ## Recovery -/

namespace Recovery

variable {wf : Workflow σ} {runSteps : List Step → Flow σ Unit}

theorem log_ends (level : Level) (message : String) :
    (log level message : Flow σ Unit).Meets (Ends wf.unlockApplies Event.bareKill?) :=
  Ends.emit rfl

/-- A question of recovery raises what the shell does in place of an answer; a question that is
cancelled becomes a kill. -/
theorem hostAsk_raises {R : Fault → Prop} (hdecides : ∀ request,
    (wf.ctx.host.decide request).Ensures fun _ o => ∀ c, o = .raised c → R c)
    (prompt : Prompt) (data : List (String × Value)) (action : Option String)
    (step : Option Entries) (cause : Option String) :
    (wf.ctx.host.ask prompt (.ofFields data) action step cause).Ensures fun _ o =>
      ∀ c, o = .raised c → (∃ message, c = .killed message) ∨
        (∀ message, c ≠ .cancelled message) ∧ R c := by
  have hdata : ∀ c, (if (Value.ofFields data).truth then (Value.ofFields data).asMapping
      else .ok []) ≠ .error c := by
    intro c
    split <;> exact fun h => by cases h
  refine Ensures.ofFallible_bind (fun entries _ => ?_) fun c hc => absurd hc (hdata c)
  refine Ensures.emit_bind (Ensures.emit_bind ?_)
  refine Ensures.bind (P := fun _ o => ∀ c, o = .raised c → (∃ message, c = .killed message) ∨
      (∀ message, c ≠ .cancelled message) ∧ R c)
    (Ensures.rescue (hdecides _) (fun _ _ h => by simp) (fun es c h => ?_) fun _ h => by simp)
    (fun es d _ => ?_) (fun es c h c' hc' => h c' (by cases hc'; rfl)) fun es h => by simp
  · split
    · exact Ensures.raise fun c hc => .inl ⟨_, (Ending.raised.inj hc).symm⟩
    · next hne =>
      refine Ensures.raise fun c' hc => ?_
      cases hc
      exact .inr ⟨hne, h c rfl⟩
  · exact fun n w c hc => by cases hc

variable (hwf : wf.Orderly)
include hwf

/-- A question of recovery is answered or cancelled. -/
theorem hostAsk_killed (prompt : Prompt) (data : List (String × Value)) (action : Option String)
    (step : Option Entries) (cause : Option String) :
    (wf.ctx.host.ask prompt (.ofFields data) action step cause).Ensures fun _ o =>
      ∀ c, o = .raised c → ∃ message, c = .killed message := by
  refine Ensures.mono (hostAsk_raises hwf.decides prompt data action step cause) fun _ _ h c hc => ?_
  rcases h c hc with hkilled | ⟨hne, message, hcancelled⟩
  · exact hkilled
  · exact absurd hcancelled (hne message)

theorem ask_ends (prompt : Prompt) (f : ActionFailure) (step : Step)
    (data : List (String × Value)) :
    (ask (wf.rules runSteps) prompt f step data).Meets
      (Ends wf.unlockApplies Event.bareKill?) := by
  have signals (es : List Signal) : ∀ e ∈ es.map Event.recovery, e.entersUnlock = false := by
    simp [Event.entersUnlock]
  refine ask_ensures (hostAsk_killed hwf prompt data _ _ _) (fun es d _ => ?_) (fun es c h => ?_)
    fun es _ => Ends.quiet (signals es) (by simp)
  · refine (Ends.quiet ?_ (by simp)).append fun e he _ => signals es e he
    simp [Event.entersUnlock]
  · obtain ⟨message, rfl⟩ := h c rfl
    refine Ends.append (fun e he _ => signals es e he) ⟨fun c hc => ?_, fun c _ => ?_⟩
    · cases hc
      exact .killed _ ⟨_, List.mem_singleton_self _, rfl⟩
    · simp [Event.entersUnlock]

theorem sustains_ends (runSteps : List Step → Flow σ Unit) :
    Sustains (wf.rules runSteps) (Ends wf.unlockApplies Event.bareKill?) where
  toComposes := Ends.composes _ _
  logs := log_ends
  asks := ask_ends hwf
  declines message := Ends.raise (.declined message)

/-! What follows is about actions whose faults have their reasons. -/

variable (hacts : ∀ as, (∀ a ∈ as, a.id.writable = true) →
  (Flow.actions runSteps wf.table wf.ctx as).Meets (Ends wf.unlockApplies Event.bareBelow?))
include hacts

theorem runUnlock_ends {applies : Bool} (happlies : wf.unlockApplies = .ok applies)
    (step : Step) :
    (runUnlock (wf.rules runSteps) step).Meets (Ends wf.unlockApplies Event.bareKill?) := by
  have hP := sustains_ends hwf runSteps
  obtain ⟨hactions, hfallback⟩ := Step.isNamed_iff.mp hwf.unlockNamed
  have unlocking : (Flow.inside .unlock
      (Flow.actions runSteps wf.table wf.ctx wf.ctx.device.unlockStep.actions)).Meets
        (Ends wf.unlockApplies Event.bareKill?) :=
    Ends.inside (hacts _ hactions) fun _ _ => Event.kill?_of_bareBelow?
  refine hP.runUnlock step (fun c hc => ?_) (hP.unlockRound step ?_ fun _ _ => ?_)
  · cases happlies.symm.trans hc
  · exact Ends.recoverable unlocking (Emits.mapEvents fun _ _ _ _ => rfl)
  · exact Ends.inPart (hacts _ hfallback)
      (fun e c hc => (Event.bareKill?_unlockFallback e).trans hc) (by decide)

/-- Only here can nobody say whether the unlock flow applies, once it was entered. -/
theorem unlock_ends (f : ActionFailure) (step : Step) :
    (unlock (wf.rules runSteps) f step).Meets (Ends wf.unlockApplies Event.bareKill?) := by
  have hP := sustains_ends hwf runSteps
  cases happlies : wf.unlockApplies with
  | ok applies =>
    rw [← happlies]
    refine hP.unlock f step (Ensures.emit ⟨fun c hc => (by cases hc), fun c hc => ?_⟩)
      (runUnlock_ends hwf hacts happlies step) (Ends.emit rfl)
    cases happlies.symm.trans hc
  | error c =>
    rw [← happlies]
    refine hP.bind (hP.logs _ _) fun _ => hP.bind (hP.asks _ f step _) fun decision => ?_
    refine hP.bind (hP.requireResume _ _) fun _ => ?_
    -- The flow is entered, and ends with the fault of its condition.
    unfold runUnlock
    rw [bind_assoc]
    refine Ensures.emit_bind (Ensures.ofFallible_bind (fun applies h => ?_) fun c' h => ?_)
    · cases happlies.symm.trans h
    · cases happlies.symm.trans h
      refine ⟨fun c' hc' => ?_, fun c' hc' _ => ?_⟩
      · cases hc'
        exact .stuck c happlies ⟨_, List.mem_singleton_self _, rfl⟩
      · cases happlies.symm.trans hc'
        rfl

theorem reconnect_ends (f : ActionFailure) (step : Step) (count : Nat) :
    (reconnect (wf.rules runSteps) f step count).Meets
      (Ends wf.unlockApplies Event.bareKill?) := by
  have reconnecting :
      (Flow.inPart .reconnect (Flow.actions runSteps wf.table wf.ctx [reconnectAction])).Meets
        (Ends wf.unlockApplies Event.bareKill?) :=
    Ends.inPart (hacts _ (by simp [reconnectAction, Action.named, Value.writable]))
      (fun _ _ => Event.kill?_of_bareBelow?) (by decide)
  exact (sustains_ends hwf runSteps).reconnect f step count
    (Ends.recoverable reconnecting (Flow.inPart_emits rfl (fun _ _ _ _ => rfl) rfl))

theorem course_ends {f : ActionFailure} (hf : f.kind ≠ .killed) {step : Step}
    (hnamed : step.isNamed = true) {a a' : StepAttempt} {course : Flow σ Resolution}
    (h : Course (wf.rules runSteps) f step a course a') :
    course.Meets (Ends wf.unlockApplies Event.bareKill?) := by
  refine (sustains_ends hwf runSteps).course h (fun kind => absurd kind hf) ?_
    (unlock_ends hwf hacts f step) (reconnect_ends hwf hacts f step)
  exact Ends.inPart (hacts _ (Step.isNamed_iff.mp hnamed).2)
    (fun e c hc => (Event.bareKill?_fallback e).trans hc) (by decide)

theorem handle_ends {f : ActionFailure} (hf : f.kind ≠ .killed) {step : Step}
    (hnamed : step.isNamed = true) (a : StepAttempt) :
    (handle (wf.rules runSteps) f step a).Meets (Ends wf.unlockApplies Event.bareKill?) := by
  have hP := Ends.composes wf.unlockApplies Event.bareKill?
  obtain ⟨course, a', hcourse, heq⟩ := handle_course (wf.rules runSteps) f step a
  rw [heq]
  exact hP.bind (Ends.emit rfl) fun _ => hP.bind_pure (course_ends hwf hacts hf hnamed hcourse) _

end Recovery

/-! ## Actions and steps -/

namespace Flow

variable {wf : Workflow σ} {runSteps : List Step → Flow σ Unit}

/-- What a handler returns is read as steps that were validated, or refused. -/
theorem substepsOf_cases (d : Dispatch) (v : Value) :
    (∃ ss, substepsOf d v = .ok ss ∧ (∀ s ∈ ss, s.Validated) ∧
      (ss = [] ∨ ∃ path, Step.listOf path v = .ok ss)) ∨
      ∃ e, substepsOf d v = .error e ∧ Step.Refusal e := by
  unfold substepsOf
  split
  · rcases Step.listOf_cases (d.id ++ " substeps") v with ⟨ss, hss, hvalid⟩ | hrefused
    · exact .inl ⟨ss, hss, hvalid, .inr ⟨_, hss⟩⟩
    · exact .inr hrefused
  · exact .inl ⟨[], rfl, by simp, .inl rfl⟩

/-- A handler fails in an ordinary way, if by a kill with the event that says so, or the steps that
it returns can be run. -/
theorem callHandler_ends (hwf : wf.Orderly) (d : Dispatch) :
    (callHandler wf.table wf.ctx d).Ensures fun es o =>
      (∀ e ∈ es, e.entersUnlock = false) ∧
      (∀ c, o = .raised c → c.isOrdinary ∧ (c.kind = .killed → ∃ e ∈ es, e.kill? = some c)) ∧
      ∀ ss, o = .returned ss → ∀ s ∈ ss, s.Ready := by
  have calls (es : List Signal) :
      ∀ e ∈ .dispatched d.ns d.verb d.payload :: es.map Event.handler,
        e.entersUnlock = false := by
    simp [Event.entersUnlock]
  refine callHandler_ensures (fun handler h =>
    (hwf.fails d.id handler d.payload h).and (hwf.returns d.id handler d.payload h))
    ?unknown ?returned ?unread ?raised ?unfinished
  case unknown =>
    refine fun _ => ⟨by simp, fun c hc => ?_, fun _ h => by cases h⟩
    cases hc
    exact ⟨rfl, fun h => by cases h⟩
  case returned =>
    refine fun es v ss h hss => ⟨calls es, fun _ h => (by cases h), fun ss' h' s hs => ?_⟩
    cases h'
    rcases substepsOf_cases d v with ⟨ss', hss', hvalid, hpath⟩ | ⟨e, he, -⟩
    · cases hss.symm.trans hss'
      rcases hpath with rfl | ⟨path, hpath⟩
      · cases hs
      · have hlegible := h.2 v rfl path ss hpath s hs
        exact ⟨hvalid s hs, hlegible, Step.named_of_listed hpath hs hlegible.shown⟩
    · cases hss.symm.trans he
  case unread =>
    refine fun es v c h hc => ⟨calls es, fun c' h' => ?_, fun _ h => by cases h⟩
    cases h'
    rcases substepsOf_cases d v with ⟨ss, hss, _⟩ | ⟨e, he, hrefusal⟩
    · cases hc.symm.trans hss
    · cases hc.symm.trans he
      cases hrefusal <;> exact ⟨rfl, fun h => by cases h⟩
  case raised =>
    refine fun es c h => ⟨?_, fun c' h' => ?_, fun _ h => by cases h⟩
    · rw [← List.cons_append]
      simp [or_imp, forall_and, Event.entersUnlock]
    · cases h'
      exact ⟨h.1 c rfl, fun hk => ⟨.raised c, by simp, if_pos hk⟩⟩
  case unfinished => exact fun es _ => ⟨calls es, fun _ h => (by cases h), fun _ h => (by cases h)⟩

theorem asFailureOf_of_ordinary {id : String} {c : Fault} (h : c.isOrdinary) :
    (∃ message, c = .aborted message ∧ asFailureOf id c = .aborted message) ∨
      asFailureOf id c = .inAction id c := by
  cases c with
  | aborted message => exact .inl ⟨message, rfl, rfl⟩
  | cancelled => cases h
  | _ => exact .inr rfl

/-- A fault that an action lets through unwrapped is an answer that declines, or comes out of its
substeps. -/
theorem action_ends (hwf : wf.Orderly)
    (hsteps : ∀ ss, (∀ s ∈ ss, s.Ready) →
      (runSteps ss).Meets (Ends wf.unlockApplies Event.bareKill?)) {a : Action}
    (hnamed : a.id.writable = true) :
    (action runSteps wf.table wf.ctx a).Meets (Ends wf.unlockApplies Event.bareBelow?) := by
  have hP := Ends.composes wf.unlockApplies Event.bareBelow?
  unfold action
  split
  · next e he =>
    rcases dispatch_error he with rfl | ⟨hunnamed, -⟩
    · exact Ensures.raise (Ends.raise (.failed _ _ fun h => by cases h))
    · cases hunnamed.symm.trans hnamed
  next d _ =>
  refine hP.bind_of (V := fun ss => ∀ s ∈ ss, s.Ready) ?_ fun ss hss => ?_
  · refine Ensures.rescue (callHandler_ends hwf d) (fun es ss h => ?_) (fun es c h => ?_)
      fun es h => ?_
    · exact ⟨Ends.quiet h.1 (by simp), h.2.2⟩
    · -- Whatever the handler raised is wrapped, but for a declined question.
      obtain ⟨hplain, hfault, _⟩ := h
      obtain ⟨hc, hkill⟩ := hfault c rfl
      refine Ensures.raise ⟨?_, fun ss h => by cases h⟩
      rw [List.append_nil]
      refine ⟨fun c' hc' => ?_, fun c' _ => ?_⟩
      · cases hc'
        rcases asFailureOf_of_ordinary hc with ⟨message, -, h⟩ | h
        · exact h ▸ .declined message
        · exact h ▸ .failed d.id c hkill
      · rintro ⟨e, he, hu⟩
        simp [hplain e he] at hu
    · exact ⟨Ends.quiet h.1 (by simp), fun ss h => by cases h⟩
  · split
    · exact hP.pure _
    · exact Ends.inPart (hsteps ss hss) (fun _ _ h => h) (by decide)

theorem actions_ends (hwf : wf.Orderly)
    (hsteps : ∀ ss, (∀ s ∈ ss, s.Ready) →
      (runSteps ss).Meets (Ends wf.unlockApplies Event.bareKill?)) {as : List Action}
    (hnamed : ∀ a ∈ as, a.id.writable = true) :
    (actions runSteps wf.table wf.ctx as).Meets (Ends wf.unlockApplies Event.bareBelow?) :=
  (Ends.composes _ _).each fun a ha => action_ends hwf hsteps (hnamed a ha)

end Flow

namespace Workflow

variable {wf : Workflow σ} {runSteps : List Step → Flow σ Unit}

theorem start_ends (hwf : wf.Orderly)
    (hsteps : ∀ ss, (∀ s ∈ ss, s.Ready) →
      (runSteps ss).Meets (Ends wf.unlockApplies Event.bareKill?))
    {s : Step} (hs : s.Ready) (a : StepAttempt) :
    (wf.start runSteps s a).Meets (Ends wf.unlockApplies Event.bareKill?) := by
  have hP := Ends.composes wf.unlockApplies Event.bareKill?
  have hacts : ∀ as : List Action, (∀ a ∈ as, a.id.writable = true) →
      (Flow.actions runSteps wf.table wf.ctx as).Meets (Ends wf.unlockApplies Event.bareBelow?) :=
    fun _ => Flow.actions_ends hwf hsteps
  obtain ⟨hactions, -⟩ := Step.isNamed_iff.mp hs.named
  -- Neither the condition nor the description of the step can fail.
  obtain ⟨b, hb⟩ := Step.evaluate_of_legible hs.validated hs.legible wf.ctx.settings.data
  obtain ⟨text, htext⟩ := hs.legible.shown
  have describing : (liftM s.describe : Flow σ String).Meets
      (Ends wf.unlockApplies Event.bareKill?) := by
    rw [htext]
    exact hP.pure text
  have evaluating : (liftM (Condition.evaluate s.condition wf.ctx.settings.data) :
      Flow σ Bool).Meets (Ends wf.unlockApplies Event.bareKill?) := by
    rw [hb]
    exact hP.pure b
  have pausing : (Flow.ofRecovery wf.ctx.host.pause).Meets
      (Ends wf.unlockApplies Event.bareKill?) := by
    refine Ensures.mapEvents (hwf.pauses.mono fun es o h => Ends.quiet ?_ fun c hc => ?_)
    · simp [Event.entersUnlock]
    · exact h c (Ending.forget_eq_raised hc)
  refine hP.bind pausing fun _ => hP.bind evaluating fun applies => ?_
  split
  · refine hP.bind describing fun text => hP.bind (Ends.emit rfl) fun _ => ?_
    refine Ends.failureOf_bind (Ensures.mono (hacts _ hactions) fun _ _ h => h.ofActions) ?_
      (hP.pure _) (fun id c hc => ?_) fun id c hc => ?_
    · refine (Flow.actions_emits runSteps wf.table wf.ctx s.actions).mono fun e he => ?_
      cases e with
      | within part e => cases he; rfl
      | _ => rfl
    · refine hP.bind (Recovery.handle_ends hwf hacts (f := ⟨id, c⟩) hc hs.named a) fun r => ?_
      rcases r with ⟨_ | _, a'⟩
      · exact hP.pure _
      · exact hP.bind describing fun text => hP.bind_pure (Ends.emit rfl) _
    · dsimp only
      rw [Recovery.handle_of_killed (f := ⟨id, c⟩) _ hc]
      intro n w
      exact ⟨by simp [bind_apply, Run.emit, Run.raise, Event.entersUnlock], rfl⟩
  · exact hP.bind describing fun text => hP.bind_pure (Ends.emit rfl) _

theorem step_ends (hwf : wf.Orderly)
    (hsteps : ∀ ss, (∀ s ∈ ss, s.Ready) →
      (runSteps ss).Meets (Ends wf.unlockApplies Event.bareKill?)) {s : Step} (hs : s.Ready) :
    (wf.step runSteps s).Meets (Ends wf.unlockApplies Event.bareKill?) :=
  (Ends.composes _ _).repeatFrom (fun a => start_ends hwf hsteps hs a) {}

theorem runStepsTo_ends (hwf : wf.Orderly) (depth : Nat) {ss : List Step}
    (hss : ∀ s ∈ ss, s.Ready) :
    (wf.runStepsTo depth ss).Meets (Ends wf.unlockApplies Event.bareKill?) := by
  induction depth generalizing ss with
  | zero => exact Ensures.unfinished (Ends.quiet (by simp) (by simp))
  | succ depth ih =>
    exact (Ends.composes _ _).each fun s hs => step_ends hwf (fun _ h => ih h) (hss s hs)

end Workflow

end Reflash
