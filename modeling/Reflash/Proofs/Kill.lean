import Mathlib
import Reflash.Proofs.Recovery

set_option autoImplicit false

/-! # A kill ends a run

A kill is a failure of the kind `killed` that a handler raises, at any depth, or that comes out of a
question of recovery. `KillsEnd` says what such an event means for the run that it is part of: the
run ends by it, and nothing is called or asked on the way. Every part of a workflow ensures it,
whatever table, shell and world are (`runStepsTo_kills`), so a kill is never intercepted
(`nothing_after_kill`).

On its way a kill is a failure of the action whose handler raised it, until recovery of the
enclosing step passes it on as it was raised. `Event.bareKill?` tells which kills get that far: all
but those of a fallback that no other step encloses. -/

namespace Reflash

open Run

variable {σ α β : Type}

/-! ## Kills and what may follow them -/

namespace Event

/-- The kill that an event is, at whatever depth. -/
def kill? : Event → Option Fault
  | raised cause | unanswered _ cause => if cause.kind = .killed then some cause else none
  | within _ e => e.kill?
  | _ => none

/-- The kill that an event of a step, or of a list of steps, lets out as it was raised. A failure of
a fallback is not looked at by the step that it stands for, so a kill there stays the failure of an
action, unless it comes out of the steps below. -/
def bareKill? : Event → Option Fault
  | within .fallback (within .substeps e) | within .unlockFallback (within .substeps e) =>
    e.bareKill?
  | within .fallback _ | within .unlockFallback _ => none
  | e => e.kill?

/-- The kill that an event of actions lets out as it was raised: one of the substeps. -/
def bareBelow? : Event → Option Fault
  | within .substeps e => e.bareKill?
  | _ => none

/-- Whether the event is a call of a handler, at whatever depth. -/
def dispatches : Event → Bool
  | dispatched .. => true
  | within _ e => e.dispatches
  | _ => false

/-- Whether the event is a question to the user, by whomever. -/
def prompts (e : Event) : Bool :=
  match e.signal? with
  | some (.prompted _) => true
  | _ => false

/-- Nothing is called and nobody is asked. -/
def Quiet (e : Event) : Prop :=
  e.dispatches = false ∧ e.prompts = false

theorem kind_of_kill? {e : Event} {c : Fault} (h : e.kill? = some c) : c.kind = .killed := by
  induction e with
  | raised cause | unanswered _ cause =>
    simp only [kill?] at h
    split at h
    · cases h; assumption
    · cases h
  | within _ e ih => exact ih h
  | _ => cases h

theorem kill?_of_bareKill? {e : Event} {c : Fault} (h : e.bareKill? = some c) :
    e.kill? = some c := by
  fun_induction bareKill? e with
  | case1 e ih | case2 e ih => exact ih h
  | case3 | case4 => cases h
  | case5 => exact h

theorem bareKill?_eq_none {e : Event} (h : e.kill? = none) : e.bareKill? = none := by
  cases hk : e.bareKill? with
  | none => rfl
  | some c => exact absurd (kill?_of_bareKill? hk) (by simp [h])

theorem bareKill?_of_bareBelow? {e : Event} {c : Fault} (h : e.bareBelow? = some c) :
    e.bareKill? = some c := by
  unfold bareBelow? at h
  split at h
  · next e => exact show e.kill? = some c from kill?_of_bareKill? h
  · cases h

theorem kill?_of_bareBelow? {e : Event} {c : Fault} (h : e.bareBelow? = some c) :
    e.kill? = some c :=
  kill?_of_bareKill? (bareKill?_of_bareBelow? h)

theorem bareKill?_fallback (e : Event) : (within .fallback e).bareKill? = e.bareBelow? := by
  unfold bareKill? bareBelow?
  split <;> simp_all

theorem bareKill?_unlockFallback (e : Event) :
    (within .unlockFallback e).bareKill? = e.bareBelow? := by
  unfold bareKill? bareBelow?
  split <;> simp_all

end Event

/-- Everything that comes after a kill is quiet. -/
def QuietAfterKills (es : List Event) : Prop :=
  es.Pairwise fun e e' => e.kill?.isSome → e'.Quiet

namespace QuietAfterKills

variable {es es' : List Event}

theorem of_quiet (h : ∀ e ∈ es, e.Quiet) : QuietAfterKills es := by
  induction es with
  | nil => exact List.Pairwise.nil
  | cons e es ih =>
    have hes : ∀ e' ∈ es, e'.Quiet := fun e' he' => h e' (List.mem_cons_of_mem _ he')
    exact List.pairwise_cons.mpr ⟨fun e' he' _ => hes e' he', ih hes⟩

theorem append_quiet (h : QuietAfterKills es) (h' : ∀ e ∈ es', e.Quiet) :
    QuietAfterKills (es ++ es') :=
  List.pairwise_append.mpr ⟨h, of_quiet h', fun _ _ e' he' _ => h' e' he'⟩

/-- Before the first kill anything may happen. -/
theorem prepend (h : ∀ e ∈ es, e.kill? = none) (h' : QuietAfterKills es') :
    QuietAfterKills (es ++ es') := by
  induction es with
  | nil => exact h'
  | cons e es ih =>
    refine List.pairwise_cons.mpr ⟨fun e' _ hk => ?_, ih fun e' he' => h e' (by simp [he'])⟩
    simp [h e (List.mem_cons_self ..)] at hk

end QuietAfterKills

/-- The kill is on its way out of the run, as it was raised or as the failure of an action. -/
def Ending.Carries (o : Ending Unit) (c : Fault) : Prop :=
  o = .raised c ∨ ∃ id, o = .raised (.inAction id c)

/-- What the kills among the events of a run mean for it. `bare` says which of them leave it as they
were raised. -/
structure KillsEnd (bare : Event → Option Fault) (es : List Event) (o : Ending Unit) : Prop where
  quiet : QuietAfterKills es
  carried : ∀ e ∈ es, ∀ c, e.kill? = some c → o.Carries c
  bare : ∀ e ∈ es, ∀ c, bare e = some c → o = .raised c

namespace KillsEnd

variable {bare : Event → Option Fault} {es es' : List Event} {o o' : Ending Unit}

/-- A run that goes on has seen no kill. -/
theorem no_kill (h : KillsEnd bare es (.returned ())) : ∀ e ∈ es, e.kill? = none := by
  intro e he
  cases hk : e.kill? with
  | none => rfl
  | some c => rcases h.carried e he c hk with h | ⟨id, h⟩ <;> cases h

/-- What is seen before the first kill says nothing about how the run ends. -/
theorem append (h : ∀ e ∈ es, e.kill? = none) (hb : ∀ e ∈ es, bare e = none)
    (h' : KillsEnd bare es' o) : KillsEnd bare (es ++ es') o where
  quiet := h'.quiet.prepend h
  carried e he c hc := by
    rcases List.mem_append.mp he with he | he
    · simp [h e he] at hc
    · exact h'.carried e he c hc
  bare e he c hc := by
    rcases List.mem_append.mp he with he | he
    · simp [hb e he] at hc
    · exact h'.bare e he c hc

theorem nil : KillsEnd bare [] o where
  quiet := List.Pairwise.nil
  carried := by simp
  bare := by simp

theorem ofFallible (x : Fallible α) : (liftM x : Flow σ α).Meets (KillsEnd bare) :=
  Ensures.ofFallible (fun _ _ => nil) fun _ _ => nil

theorem composes (bare : Event → Option Fault) : Composes (KillsEnd bare) where
  nil := nil
  unfinished := nil
  append h h' := h'.append h.no_kill fun e he => by
    cases hk : bare e with
    | none => rfl
    | some c => cases h.bare e he c hk

/-- Only what may be a kill matters. -/
theorem of_no_kill (h : ∀ e ∈ es, e.kill? = none) (hb : ∀ e ∈ es, bare e = none) :
    KillsEnd bare es o := by
  rw [← List.append_nil es]
  exact nil.append h hb

theorem of_emits {P : Event → Prop} {r : Flow σ α} (hr : r.Emits P)
    (h : ∀ e, P e → e.kill? = none) (hb : ∀ e, P e → bare e = none) : r.Meets (KillsEnd bare) :=
  Ensures.mono hr fun _ _ hes => of_no_kill (fun e he => h e (hes e he)) fun e he => hb e (hes e he)

/-- A single kill that is the end of the run. -/
theorem raised {e : Event} {c : Fault} (hc : e.kill? = some c) (ho : o.Carries c)
    (hb : ∀ c, bare e = some c → o = .raised c) : KillsEnd bare [e] o where
  quiet := List.pairwise_singleton _ _
  carried := by
    simp only [List.mem_singleton, forall_eq]
    intro c' hc'
    cases hc.symm.trans hc'
    exact ho
  bare := by simpa using hb

/-- The same run where nothing is let out as it was raised. -/
theorem wrapped (h : KillsEnd bare es o) : KillsEnd (fun _ => none) es o where
  quiet := h.quiet
  carried := h.carried
  bare := by simp

theorem emit {e : Event} (h : e.kill? = none) :
    (Run.emit e : Flow σ Unit).Meets (KillsEnd Event.bareKill?) :=
  Ensures.emit (of_no_kill (by simpa using h) (by simpa using Event.bareKill?_eq_none h))

theorem inside {bare' : Event → Option Fault} {part : Part} {flow : Flow σ α}
    (hf : flow.Meets (KillsEnd bare)) (hb : ∀ e, bare' (.within part e) = bare e) :
    (Flow.inside part flow).Meets (KillsEnd bare') := by
  refine Flow.inside_ensures (Ensures.mono hf fun es o h => ?_)
  refine ⟨List.pairwise_map.mpr h.quiet, ?_, ?_⟩
  · simp only [List.mem_map, forall_exists_index, and_imp, forall_apply_eq_imp_iff₂]
    exact h.carried
  · simp only [List.mem_map, forall_exists_index, and_imp, forall_apply_eq_imp_iff₂, hb]
    exact h.bare

theorem inPart {bare' : Event → Option Fault} {part : Part} {flow : Flow σ α}
    (hf : flow.Meets (KillsEnd bare)) (hb : ∀ e, bare' (.within part e) = bare e)
    (entered : bare' (.entered part) = none) (left : bare' (.left part) = none) :
    (Flow.inPart part flow).Meets (KillsEnd bare') := by
  have emits (e : Event) (hk : e.kill? = none) (he : bare' e = none) :
      (Run.emit e : Flow σ Unit).Meets (KillsEnd bare') :=
    of_emits (P := (· = e)) (Emits.emit rfl) (by simpa using hk) (by simpa using he)
  refine (composes _).bind (emits _ rfl entered) fun _ => ?_
  refine (composes _).bind (inside hf hb) fun a => ?_
  exact (composes _).bind (emits _ rfl left) fun _ => (composes _).pure a

/-- The failure of an action carries no other kill than its own. -/
theorem eq_of_inAction {id : String} {c c' : Fault} {e : Event}
    (h : KillsEnd bare es (.raised (.inAction id c))) (he : e ∈ es) (hc' : e.kill? = some c') :
    c' = c := by
  rcases h.carried e he c' hc' with ho | ⟨id', ho⟩
  · cases ho
    cases Event.kind_of_kill? hc'
  · cases ho
    rfl

/-- The kill of an action that is looked at, and passed on at once as it was raised. -/
theorem passed_on {id : String} {c : Fault} (h : KillsEnd bare es (.raised (.inAction id c)))
    (h' : ∀ e ∈ es', e.kill? = none ∧ e.Quiet) :
    KillsEnd Event.bareKill? (es ++ es') (.raised c) := by
  have eq_of_mem (e : Event) (he : e ∈ es ++ es') (d : Fault) (hd : e.kill? = some d) : d = c := by
    rcases List.mem_append.mp he with he | he
    · exact h.eq_of_inAction he hd
    · simp [(h' e he).1] at hd
  refine ⟨h.quiet.append_quiet fun e he => (h' e he).2, fun e he d hd => ?_, fun e he d hd => ?_⟩
  · cases eq_of_mem e he d hd
    exact .inl rfl
  · cases eq_of_mem e he d (Event.kill?_of_bareKill? hd)
    rfl

/-- Where the failure of an action is looked at, a kill arrives as one, and has to be passed on at
once. Any other failure says that there was no kill before. -/
theorem failureOf_bind {flow : Flow σ α} {next : Option (String × Fault) → Flow σ β}
    (hf : flow.Meets (KillsEnd bare)) (through : (next none).Meets (KillsEnd Event.bareKill?))
    (failed : ∀ id c, c.kind ≠ .killed → (next (some (id, c))).Meets (KillsEnd Event.bareKill?))
    (killed : ∀ id c, c.kind = .killed → (next (some (id, c))).Ensures fun es o =>
      (∀ e ∈ es, e.kill? = none ∧ e.Quiet) ∧ o.forget = .raised c) :
    (Flow.failureOf flow >>= next).Meets (KillsEnd Event.bareKill?) := by
  refine Flow.failureOf_bind hf ?through ?failed ?raised ?unfinished
  case through =>
    intro es a h n w
    exact (through n w).append h.no_kill fun e he => Event.bareKill?_eq_none (h.no_kill e he)
  case failed =>
    intro es id c h n w
    by_cases hc : c.kind = .killed
    · obtain ⟨hes', ho⟩ := killed id c hc n w
      rw [ho]
      exact h.passed_on hes'
    · have hes : ∀ e ∈ es, e.kill? = none := by
        intro e he
        cases hk : e.kill? with
        | none => rfl
        | some c' =>
          cases h.eq_of_inAction he hk
          exact absurd (Event.kind_of_kill? hk) hc
      exact (failed id c hc n w).append hes fun e he => Event.bareKill?_eq_none (hes e he)
  case raised =>
    -- What is no failure of an action can carry a kill only as it was raised.
    intro es e he h
    have carried : ∀ e' ∈ es, ∀ c, e'.kill? = some c →
        (Ending.raised e : Ending Unit) = .raised c := by
      intro e' he' c hc
      rcases h.carried e' he' c hc with ho | ⟨id, ho⟩
      · exact ho
      · cases ho
        exact absurd rfl (he id c)
    exact ⟨h.quiet, fun e' he' c hc => .inl (carried e' he' c hc),
      fun e' he' c hc => carried e' he' c (Event.kill?_of_bareKill? hc)⟩
  case unfinished =>
    intro es h
    refine ⟨h.quiet, h.carried, fun e he c hc => ?_⟩
    rcases h.carried e he c (Event.kill?_of_bareKill? hc) with ho | ⟨id, ho⟩ <;> cases ho

theorem recoverable {flow : Flow σ α} (hf : flow.Meets (KillsEnd bare)) :
    Recovery.Recoverable (KillsEnd Event.bareKill?) flow := by
  intro β next through failed killed
  refine failureOf_bind hf through failed fun id c hc => ?_
  rw [killed id c hc]
  exact Ensures.raise ⟨by simp, rfl⟩

end KillsEnd

/-! ## Every part of a workflow ends by its kills -/

namespace Recovery

variable {rules : Rules σ} {f : ActionFailure} {step : Step}

theorem log_kills (level : Level) (message : String) :
    (log level message : Flow σ Unit).Meets (KillsEnd Event.bareKill?) :=
  KillsEnd.of_emits (log_emits level message) (by rintro _ ⟨s, rfl⟩; rfl)
    (by rintro _ ⟨s, rfl⟩; rfl)

/-- A question that is cancelled is a kill, and ends the run by it. -/
theorem ask_kills (rules : Rules σ) (prompt : Prompt) (f : ActionFailure) (step : Step)
    (data : List (String × Value)) :
    (ask rules prompt f step data).Meets (KillsEnd Event.bareKill?) := by
  have signals : ∀ es : List Signal, ∀ e ∈ es.map Event.recovery, e.kill? = none := by
    simp [Event.kill?]
  refine ask_ensures (R := fun _ _ => True) (fun _ _ => trivial) ?_ ?_ ?_
  · intro es d _
    have h : ∀ e ∈ es.map Event.recovery ++ [.answered prompt d], e.kill? = none := by
      intro e he
      rcases List.mem_append.mp he with he | he
      · exact signals es e he
      · rw [List.mem_singleton.mp he]
        rfl
    exact KillsEnd.of_no_kill h fun e he => Event.bareKill?_eq_none (h e he)
  · intro es e _
    refine KillsEnd.append (signals es) (fun e he => Event.bareKill?_eq_none (signals es e he)) ?_
    by_cases he : e.kind = .killed
    · exact KillsEnd.raised (c := e) (if_pos he) (.inl rfl) fun c hc => by
        cases (Event.kill?_of_bareKill? hc).symm.trans (if_pos he)
        rfl
    · have h : (Event.unanswered prompt e).kill? = none := if_neg he
      exact KillsEnd.of_no_kill (by simpa using h) (by simpa using Event.bareKill?_eq_none h)
  · intro es _
    exact KillsEnd.of_no_kill (signals es) fun e he => Event.bareKill?_eq_none (signals es e he)

/-- A cancelled question is such a kill: the last event says that there was no answer. -/
theorem ask_cancelled (rules : Rules σ) (prompt : Prompt) (f : ActionFailure) (step : Step)
    (data : List (String × Value)) {n : Nat} {w : σ}
    (hcancel : ∀ request, ∃ message,
      (rules.ctx.host.decide request n w).ending = .raised (.cancelled message)) :
    ∃ before e, (ask rules prompt f step data n w).events = before ++ [e] ∧
      e.kill? = some (.killed (prompt.text ++ " prompt cancelled")) := by
  have hdata : ∃ entries, (if (Value.ofFields data).truth then (Value.ofFields data).asMapping
      else .ok []) = .ok entries := by
    split
    · exact ⟨_, rfl⟩
    · exact ⟨_, rfl⟩
  obtain ⟨entries, hdata⟩ := hdata
  unfold ask Host.ask
  simp only [hdata, bind_apply, Run.attempt, Flow.ofRecovery, Run.mapEvents, Run.ofFallible,
    Run.pure, Host.log, Run.emit, Run.rescue]
  obtain ⟨message, hm⟩ := hcancel ⟨prompt, entries, some f.id, some step.raw, some f.cause.text⟩
  rcases hrun : rules.ctx.host.decide ⟨prompt, entries, some f.id, some step.raw,
    some f.cause.text⟩ n w with ⟨o, es, w'⟩
  rw [hrun] at hm
  cases hm
  exact ⟨_, _, rfl, rfl⟩

theorem sustains_kills (rules : Rules σ) : Sustains rules (KillsEnd Event.bareKill?) where
  toComposes := KillsEnd.composes _
  logs := log_kills
  asks := ask_kills rules
  declines _ := KillsEnd.nil

/-! What follows is about rules whose actions end by their kills, and let those of their substeps
out as they were raised. -/

variable (hacts : ∀ as, (rules.actions as).Meets (KillsEnd Event.bareBelow?))
include hacts

theorem runUnlock_kills (step : Step) :
    (runUnlock rules step).Meets (KillsEnd Event.bareKill?) := by
  have hP := sustains_kills rules
  have unlocking (as : List Action) :
      (Flow.inside .unlock (rules.actions as)).Meets (KillsEnd fun _ => none) :=
    KillsEnd.inside (Ensures.mono (hacts as) fun _ _ h => h.wrapped) fun _ => rfl
  refine hP.runUnlock step (fun _ _ => KillsEnd.nil) ?_
  refine hP.unlockRound step (KillsEnd.recoverable (unlocking _)) fun _ _ => ?_
  exact KillsEnd.inPart (hacts _) Event.bareKill?_unlockFallback rfl rfl

theorem reconnect_kills (f : ActionFailure) (step : Step) (count : Nat) :
    (reconnect rules f step count).Meets (KillsEnd Event.bareKill?) := by
  have reconnecting :
      (Flow.inPart .reconnect (rules.actions [reconnectAction])).Meets (KillsEnd fun _ => none) :=
    KillsEnd.inPart (Ensures.mono (hacts _) fun _ _ h => h.wrapped) (fun _ => rfl) rfl rfl
  exact (sustains_kills rules).reconnect f step count (KillsEnd.recoverable reconnecting)

theorem course_kills {f : ActionFailure} {step : Step} {a a' : StepAttempt}
    {course : Flow σ Resolution} (h : Course rules f step a course a') :
    course.Meets (KillsEnd Event.bareKill?) := by
  have hP := sustains_kills rules
  refine hP.course h (fun _ => KillsEnd.nil) ?fallback ?unlocking (reconnect_kills hacts f step)
  case fallback => exact KillsEnd.inPart (hacts _) Event.bareKill?_fallback rfl rfl
  case unlocking =>
    exact hP.unlock f step (KillsEnd.emit rfl) (runUnlock_kills hacts step) (KillsEnd.emit rfl)

theorem handle_kills (f : ActionFailure) (step : Step) (a : StepAttempt) :
    (handle rules f step a).Meets (KillsEnd Event.bareKill?) := by
  have hP := KillsEnd.composes Event.bareKill?
  obtain ⟨course, a', hcourse, heq⟩ := handle_course rules f step a
  rw [heq]
  exact hP.bind (KillsEnd.emit rfl) fun _ => hP.bind_pure (course_kills hacts hcourse) _

end Recovery

namespace Flow

variable {runSteps : List Step → Flow σ Unit}

theorem asFailureOf_of_killed {id : String} {c : Fault} (h : c.kind = .killed) :
    asFailureOf id c = .inAction id c := by
  cases c with
  | aborted | cancelled => cases h
  | _ => rfl

/-- A kill comes out of a handler as it was raised, and nothing follows. -/
theorem callHandler_kills (table : ActionTable σ) (ctx : Context σ) (d : Dispatch) :
    (callHandler table ctx d).Ensures fun es o =>
      (∀ e ∈ es, e.bareBelow? = none) ∧ KillsEnd Event.kill? es o.forget := by
  have calls (es : List Signal) (o : Ending Unit) :
      (∀ e ∈ .dispatched d.ns d.verb d.payload :: es.map Event.handler, e.bareBelow? = none) ∧
      KillsEnd Event.kill? (.dispatched d.ns d.verb d.payload :: es.map .handler) o := by
    have h : ∀ e ∈ .dispatched d.ns d.verb d.payload :: es.map Event.handler, e.kill? = none := by
      simp [Event.kill?]
    exact ⟨by simp [Event.bareBelow?], KillsEnd.of_no_kill h h⟩
  refine callHandler_ensures (R := fun _ _ => True) (fun _ _ _ _ => trivial) ?unknown ?returned
    ?unread ?raised ?unfinished
  case unknown => exact fun _ => ⟨by simp, KillsEnd.nil⟩
  case returned => exact fun es _ _ _ _ => calls es _
  case unread => exact fun es _ _ _ _ => calls es _
  case unfinished => exact fun es _ => calls es _
  case raised =>
    intro es e _
    refine ⟨by simp [Event.bareBelow?, or_imp, forall_and], ?_⟩
    have before := (calls es (.returned ())).2.no_kill
    rw [← List.cons_append]
    -- The failure of the handler is the last event, and what the call ends with.
    refine KillsEnd.append before before ?_
    by_cases he : e.kind = .killed
    · refine KillsEnd.raised (c := e) (if_pos he) (.inl rfl) fun c hc => ?_
      cases hc.symm.trans (if_pos he)
      rfl
    · have h : (Event.raised e).kill? = none := if_neg he
      exact KillsEnd.of_no_kill (by simpa using h) (by simpa using h)

/-- An action wraps the kills of its handler, and lets those of its substeps through. -/
theorem action_kills (hsteps : ∀ ss, (runSteps ss).Meets (KillsEnd Event.bareKill?))
    (table : ActionTable σ) (ctx : Context σ) (a : Action) :
    (action runSteps table ctx a).Meets (KillsEnd Event.bareBelow?) := by
  have hP := KillsEnd.composes Event.bareBelow?
  unfold action
  split
  · exact refuse_meets (fun _ => KillsEnd.nil) _
  next d _ =>
  refine hP.bind ?_ fun steps => ?_
  · refine Ensures.rescue (callHandler_kills table ctx d) (fun es steps h => ?_)
      (fun es e h => Ensures.raise ?_) fun es h => ?_
    · exact ⟨h.2.quiet, h.2.carried, fun e he c hc => by simp [h.1 e he] at hc⟩
    · -- A kill of the handler becomes the failure of this action, so it is let out by no event.
      rw [List.append_nil]
      refine ⟨h.2.quiet, fun e' he c hc => .inr ⟨d.id, ?_⟩, fun e he c hc => by
        simp [h.1 e he] at hc⟩
      cases h.2.bare e' he c hc
      simp [asFailureOf_of_killed (Event.kind_of_kill? hc)]
    · exact ⟨h.2.quiet, h.2.carried, fun e he c hc => by simp [h.1 e he] at hc⟩
  · split
    · exact hP.pure _
    · exact KillsEnd.inPart (hsteps steps) (fun _ => rfl) rfl rfl

theorem actions_kills (hsteps : ∀ ss, (runSteps ss).Meets (KillsEnd Event.bareKill?))
    (table : ActionTable σ) (ctx : Context σ) (as : List Action) :
    (actions runSteps table ctx as).Meets (KillsEnd Event.bareBelow?) :=
  (KillsEnd.composes _).each fun a _ => action_kills hsteps table ctx a

end Flow

namespace Workflow

variable {wf : Workflow σ} {runSteps : List Step → Flow σ Unit}

theorem start_kills (hsteps : ∀ ss, (runSteps ss).Meets (KillsEnd Event.bareKill?))
    (s : Step) (a : StepAttempt) : (wf.start runSteps s a).Meets (KillsEnd Event.bareKill?) := by
  have hP := KillsEnd.composes Event.bareKill?
  have hacts := Flow.actions_kills hsteps wf.table wf.ctx
  have pausing : (Flow.ofRecovery wf.ctx.host.pause).Meets (KillsEnd Event.bareKill?) :=
    KillsEnd.of_emits (Flow.ofRecovery_emits _) (by rintro _ ⟨s, rfl⟩; rfl)
      (by rintro _ ⟨s, rfl⟩; rfl)
  refine hP.bind pausing fun _ => hP.bind (KillsEnd.ofFallible _) fun applies => ?_
  split
  · refine hP.bind (KillsEnd.ofFallible _) fun text => hP.bind (KillsEnd.emit rfl) fun _ => ?_
    refine KillsEnd.failureOf_bind (hacts s.actions) (hP.pure _) (fun id c _ => ?_)
      fun id c hc => ?_
    · refine hP.bind (Recovery.handle_kills hacts ⟨id, c⟩ s a) fun r => ?_
      rcases r with ⟨_ | _, a'⟩
      · exact hP.pure _
      · exact hP.bind (KillsEnd.ofFallible _) fun text => hP.bind_pure (KillsEnd.emit rfl) _
    · -- Recovery is asked about the kill, and passes it on.
      dsimp only
      rw [Recovery.handle_of_killed (f := ⟨id, c⟩) _ hc]
      intro n w
      exact ⟨by simp [bind_apply, Run.emit, Run.raise, Event.kill?, Event.Quiet, Event.dispatches,
        Event.prompts, Event.signal?], rfl⟩
  · exact hP.bind (KillsEnd.ofFallible _) fun text => hP.bind_pure (KillsEnd.emit rfl) _

theorem step_kills (hsteps : ∀ ss, (runSteps ss).Meets (KillsEnd Event.bareKill?)) (s : Step) :
    (wf.step runSteps s).Meets (KillsEnd Event.bareKill?) :=
  (KillsEnd.composes _).repeatFrom (fun a => start_kills hsteps s a) {}

theorem runStepsTo_kills (wf : Workflow σ) (depth : Nat) (ss : List Step) :
    (wf.runStepsTo depth ss).Meets (KillsEnd Event.bareKill?) := by
  induction depth generalizing ss with
  | zero => exact Ensures.unfinished KillsEnd.nil
  | succ depth ih => exact (KillsEnd.composes _).each fun s _ => step_kills ih s

theorem runSteps_kills (wf : Workflow σ) (ss : List Step) :
    (wf.runSteps ss).Meets (KillsEnd Event.bareKill?) :=
  Ensures.withBudget fun n => runStepsTo_kills wf n ss

theorem runValues_kills (wf : Workflow σ) (listed : Value) :
    (wf.runValues listed).Meets (KillsEnd Event.bareKill?) :=
  runValues_meets (KillsEnd.composes _) (fun _ => KillsEnd.nil) (runSteps_kills wf) listed

/-- The runs of a workflow: of steps, or of what is read as steps just before it is run. -/
inductive Runs (wf : Workflow σ) : Flow σ Bool → Prop
  | steps (steps : List Step) : Runs wf (wf.run steps)
  | values (listed : Value) : Runs wf (wf.settle (wf.runValues listed))

theorem endEvents_quiet (c : Fault) : ∀ e ∈ endEvents c, e.Quiet := by
  simp [endEvents, Event.Quiet, Event.dispatches, Event.prompts, Event.signal?]

theorem settle_kills {flow : Flow σ Unit} (hf : flow.Meets (KillsEnd Event.bareKill?)) :
    (wf.settle flow).Ensures fun es _ => QuietAfterKills es :=
  settle_ensures hf (fun _ h => h.quiet) (fun _ c _ h => h.quiet.append_quiet (endEvents_quiet c))
    (fun _ _ _ h => h.quiet) fun _ h => h.quiet

/-- A kill is never intercepted: after it the run calls no handler and asks nothing, whatever the
steps around it are and whatever was tried before. A question of recovery that is cancelled is a kill,
too (`Recovery.ask_cancelled`). -/
theorem nothing_after_kill {wf : Workflow σ} {flow : Flow σ Bool} (hflow : wf.Runs flow) (n : Nat)
    (w : σ) {before after : List Event} {e : Event}
    (hevents : (flow n w).events = before ++ e :: after) (hkill : e.kill?.isSome) :
    ∀ e' ∈ after, e'.dispatches = false ∧ e'.prompts = false := by
  have hquiet : QuietAfterKills (flow n w).events := by
    cases hflow with
    | steps steps => exact settle_kills (runSteps_kills wf steps) n w
    | values listed => exact settle_kills (runValues_kills wf listed) n w
  rw [hevents, QuietAfterKills, List.pairwise_append, List.pairwise_cons] at hquiet
  exact fun e' he' => hquiet.2.1.1 e' he' hkill

/-- The fallback of an optional step does not keep a kill from ending the run. -/
theorem nothing_after_kill_of_optional_step :
    let wf : Workflow Unit := .plain {} [("stop", some fun _ _ => Run.raise (.killed "stopped"))]
    let step : Step := {
      actions := [.named "t:stop"]
      optional := true
      fallback := [.named "t:stop"] }
    ∃ before e after, (wf.run [step, step] 1 ()).events = before ++ e :: after ∧
      e.kill? = some (.killed "stopped") ∧ after.length = 3 ∧
      ∀ e' ∈ after, e'.dispatches = false ∧ e'.prompts = false := by
  intro wf step
  have hevents : (wf.run [step, step] 1 ()).events =
      [.started "\x7b\"actions\": [\x7b\"t:stop\": null\x7d]\x7d", .dispatched "t" "stop" .null] ++
        .raised (.killed "stopped") ::
        [.failed "t:stop" (.killed "stopped"),
          .ended (.logged ⟨.warning, "interpreter", "Aborting run: stopped"⟩),
          .ended (.notified .idle)] := by cbv
  exact ⟨_, _, _, hevents, rfl, rfl, nothing_after_kill (.steps _) 1 () hevents rfl⟩

end Workflow

end Reflash
