import Reflash.Proofs.Ensures
import Reflash.Run.Workflow

set_option autoImplicit false

/-! # What the parts of a workflow ensure

Rules for the runs that steps are made of: a run whose failure is looked at (`Flow.failureOf_bind`),
actions carried out for the sake of a step (`Flow.inPart_ensures`), and a workflow that is ended
early (`Workflow.settle_ensures`). The events of actions are of a few kinds only
(`Flow.actions_emits`): what recovery does about them is not among them. -/

namespace Reflash

open Run

variable {σ α β : Type}

namespace Event

/-- The event is one that the call of a handler leaves. -/
def OfCall : Event → Prop
  | handler _ | dispatched .. | raised _ => True
  | _ => False

/-- The event is one that carrying out actions leaves. -/
def OfAction : Event → Prop
  | entered part | left part | within part _ => part = .substeps
  | e => e.OfCall

theorem OfCall.ofAction {e : Event} (h : e.OfCall) : e.OfAction := by
  cases e <;> first | exact h | cases h

end Event

namespace Flow

/-! ## Jobs and parts -/

theorem ofRecovery_emits (job : Job σ α) : (ofRecovery job).Emits fun e => ∃ s, e = .recovery s :=
  Emits.mapEvents fun _ _ s _ => ⟨s, rfl⟩

theorem inside_ensures {P : List Event → Ending α → Prop} {part : Part} {flow : Flow σ α}
    (hf : flow.Ensures fun es o => P (es.map (.within part)) o) : (inside part flow).Ensures P :=
  Ensures.mapEvents hf

/-- Actions for the sake of a step are entered, happen, and are left if they end without a
failure. -/
theorem inPart_ensures {P : List Event → Ending α → Prop} {Q : List Event → Ending α → Prop}
    {part : Part} {flow : Flow σ α} (hf : flow.Ensures P)
    (returned : ∀ es a, P es (.returned a) →
      Q (.entered part :: (es.map (.within part) ++ [.left part])) (.returned a))
    (raised : ∀ es e, P es (.raised e) →
      Q (.entered part :: es.map (.within part)) (.raised e))
    (unfinished : ∀ es, P es .unfinished →
      Q (.entered part :: es.map (.within part)) .unfinished) :
    (inPart part flow).Ensures Q := by
  intro n w
  have h := hf n w
  change Q (Run.bind _ _ n w).events (Run.bind _ _ n w).ending
  unfold Run.bind Run.emit
  change Q (_ ++ (Run.bind (inside part flow) _ n w).events)
    (Run.bind (inside part flow) _ n w).ending
  unfold Run.bind inside Run.mapEvents
  rcases hrun : flow n w with ⟨o, es, w'⟩
  rw [hrun] at h
  cases o with
  | returned a => exact returned es a h
  | raised e => exact raised es e h
  | unfinished => exact unfinished es h

theorem inside_apply {flow : Flow σ α} {n : Nat} {w w' : σ} {o : Ending α} {es : List Event}
    (h : flow n w = ⟨o, es, w'⟩) (part : Part) :
    inside part flow n w = ⟨o, es.map (.within part), w'⟩ := by
  rw [inside, Run.mapEvents, h]

/-- What actions for the sake of a step leave at their end. -/
def leaving (part : Part) : Ending α → List Event
  | .returned _ => [.left part]
  | _ => []

theorem eq_left_of_mem_leaving {part : Part} {o : Ending α} {e : Event} (h : e ∈ leaving part o) :
    e = .left part := by
  cases o with
  | returned => exact List.mem_singleton.mp h
  | raised | unfinished => cases h

theorem inPart_apply (part : Part) (flow : Flow σ α) (n : Nat) (w : σ) :
    inPart part flow n w = ⟨(flow n w).ending, .entered part ::
      ((flow n w).events.map (.within part) ++ leaving part (flow n w).ending),
      (flow n w).world⟩ := by
  unfold inPart
  rw [bind_of_returned (r := Run.emit _) rfl, bind_apply, inside_apply rfl part]
  rcases flow n w with ⟨a | e | _, es, w'⟩
  · rfl
  all_goals simp [Trail.after, leaving]

theorem inPart_emits {P : Event → Prop} {part : Part} {flow : Flow σ α} (entered : P (.entered part))
    (hf : flow.Emits fun e => P (.within part e)) (left : P (.left part)) :
    (inPart part flow).Emits P :=
  Emits.bind (Emits.emit entered) fun _ => Emits.bind (Emits.mapEvents hf) fun _ =>
    Emits.bind (Emits.emit left) fun _ => Ensures.pure (by simp)

/-! ## Failures of actions -/

theorem failureOf_apply (flow : Flow σ α) (n : Nat) (w : σ) :
    failureOf flow n w =
      match flow n w with
      | ⟨.returned _, es, w⟩ => ⟨.returned none, es, w⟩
      | ⟨.raised (.inAction id c), es, w⟩ => ⟨.returned (some (id, c)), es, w⟩
      | ⟨.raised e, es, w⟩ => ⟨.raised e, es, w⟩
      | ⟨.unfinished, es, w⟩ => ⟨.unfinished, es, w⟩ := by
  change Run.bind flow.attempt _ n w = _
  unfold Run.bind Run.attempt
  rcases flow n w with ⟨o, es, w'⟩
  cases o with
  | returned a => exact congrArg (Trail.mk _ · _) (List.append_nil es)
  | unfinished => rfl
  | raised e => cases e <;> exact congrArg (Trail.mk _ · _) (List.append_nil es)

section

variable {flow : Flow σ α} {n : Nat} {w w' : σ} {es : List Event}

theorem failureOf_of_returned {a : α} (h : flow n w = ⟨.returned a, es, w'⟩) :
    failureOf flow n w = ⟨.returned none, es, w'⟩ := by
  rw [failureOf_apply, h]

theorem failureOf_of_failed {id : String} {c : Fault}
    (h : flow n w = ⟨.raised (.inAction id c), es, w'⟩) :
    failureOf flow n w = ⟨.returned (some (id, c)), es, w'⟩ := by
  rw [failureOf_apply, h]

/-- Whatever is not the failure of an action passes. -/
theorem failureOf_of_raised {e : Fault} (h : flow n w = ⟨.raised e, es, w'⟩)
    (hne : ∀ id c, e ≠ .inAction id c) : failureOf flow n w = ⟨.raised e, es, w'⟩ := by
  rw [failureOf_apply, h]
  cases e with
  | inAction id c => exact absurd rfl (hne id c)
  | _ => rfl

theorem failureOf_of_unfinished (h : flow n w = ⟨.unfinished, es, w'⟩) :
    failureOf flow n w = ⟨.unfinished, es, w'⟩ := by
  rw [failureOf_apply, h]

end

/-- A run that looks at the failure of an action, and goes on with it. -/
theorem failureOf_bind {P : List Event → Ending α → Prop} {Q : List Event → Ending β → Prop}
    {flow : Flow σ α} {next : Option (String × Fault) → Flow σ β} (hf : flow.Ensures P)
    (through : ∀ es a, P es (.returned a) → (next none).Ensures fun es' o => Q (es ++ es') o)
    (failed : ∀ es id c, P es (.raised (.inAction id c)) →
      (next (some (id, c))).Ensures fun es' o => Q (es ++ es') o)
    (raised : ∀ es e, (∀ id c, e ≠ .inAction id c) → P es (.raised e) → Q es (.raised e))
    (unfinished : ∀ es, P es .unfinished → Q es .unfinished) :
    (failureOf flow >>= next).Ensures Q := by
  intro n w
  have h := hf n w
  change Q (Run.bind (failureOf flow) next n w).events (Run.bind (failureOf flow) next n w).ending
  unfold Run.bind
  rw [failureOf_apply]
  rcases hrun : flow n w with ⟨o, es, w'⟩
  rw [hrun] at h
  cases o with
  | returned a => exact through es a h n w'
  | unfinished => exact unfinished es h
  | raised e =>
    -- Only the failure of an action is looked at; anything else passes.
    cases e with
    | inAction id c => exact failed es id c h n w'
    | _ => exact raised es _ (fun _ _ he => Fault.noConfusion he) h

/-! ## Actions -/

theorem dispatch_of_unwritable {a : Action} (h : a.id.writable = false) :
    a.dispatch = .error .unwritable := by
  unfold Action.dispatch
  rw [Value.shown_of_unwritable h]
  rfl

/-- An identifier that has a text is split at its first colon. -/
theorem dispatch_of_writable {a : Action} (h : a.id.writable) :
    a.dispatch =
      match Text.splitFirst ':' a.id.text with
      | some (ns, verb) =>
        if ns.isEmpty || verb.isEmpty then .error (.unknownAction a.id.text)
        else .ok ⟨a.id.text, ns, verb, a.payload⟩
      | none => .error (.unknownAction a.id.text) := by
  unfold Action.dispatch
  rw [Value.shown_of_writable h]
  rfl

theorem dispatch_writable {a : Action} {d : Dispatch} (h : a.dispatch = .ok d) : a.id.writable := by
  cases hw : a.id.writable with
  | true => rfl
  | false =>
    rw [dispatch_of_unwritable hw] at h
    cases h

theorem dispatch_id {a : Action} {d : Dispatch} (h : a.dispatch = .ok d) : d.id = a.id.text := by
  rw [dispatch_of_writable (dispatch_writable h)] at h
  split at h
  · split at h
    · cases h
    · cases h
      rfl
  · cases h

/-- An action that cannot be dispatched is unknown, unless its identifier has no text. -/
theorem dispatch_error {a : Action} {e : Fault} (h : a.dispatch = .error e) :
    e = .unknownAction a.id.text ∨ a.id.writable = false ∧ e = .unwritable := by
  cases hw : a.id.writable with
  | false =>
    rw [dispatch_of_unwritable hw] at h
    cases h
    exact .inr ⟨rfl, rfl⟩
  | true =>
    refine .inl ?_
    rw [dispatch_of_writable hw] at h
    split at h
    · split at h
      · cases h
        rfl
      · cases h
    · cases h
      rfl

/-- What is made of a fault of the dispatch is a fault again. -/
theorem refuse_eq_raise (e : Fault) : ∃ e', (refuse e : Flow σ Unit) = Run.raise e' := by
  unfold refuse
  split <;> exact ⟨_, rfl⟩

/-- Refusing an action is a failure without an event. -/
theorem refuse_ensures {P : List Event → Ending Unit → Prop} {e : Fault}
    (unknown : ∀ id, e = .unknownAction id → P [] (.raised (.inAction id (.unknownAction id))))
    (other : (∀ id, e ≠ .unknownAction id) → P [] (.raised e)) :
    (refuse e : Flow σ Unit).Ensures P := by
  unfold refuse
  split
  · next id => exact Ensures.raise (unknown id rfl)
  · next hne => exact Ensures.raise (other hne)

/-- Refusing an action keeps what every failure without an event keeps. -/
theorem refuse_meets {P : List Event → Ending Unit → Prop} (fails : ∀ e, P [] (.raised e))
    (e : Fault) : (refuse e : Flow σ Unit).Meets P :=
  refuse_ensures (fun _ _ => fails _) fun _ => fails _

/-- What is done for an action that names a handler. -/
theorem action_eq {a : Action} {d : Dispatch} (h : a.dispatch = .ok d)
    (runSteps : List Step → Flow σ Unit) (table : ActionTable σ) (ctx : Context σ) :
    action runSteps table ctx a =
      ((callHandler table ctx d).rescue fun e => Run.raise (asFailureOf d.id e)) >>= fun steps =>
        if steps.isEmpty then Pure.pure () else inPart .substeps (runSteps steps) := by
  unfold action
  rw [h]

theorem actions_single (runSteps : List Step → Flow σ Unit) (table : ActionTable σ)
    (ctx : Context σ) (a : Action) :
    actions runSteps table ctx [a] = action runSteps table ctx a := by
  show (action runSteps table ctx a >>= fun _ => Pure.pure ()) = _
  rw [bind_pure_unit]

/-- The steps that a handler's value lists. -/
def substepsOf (d : Dispatch) (v : Value) : Fallible (List Step) :=
  if v.truth then Step.listOf (d.id ++ " substeps") v else .ok []

/-- What was seen of an action when its handler is through. -/
def called (d : Dispatch) (signals : List Signal) : List Event :=
  .dispatched d.ns d.verb d.payload :: signals.map .handler

/-- A call of a handler: the steps that it returns are read without an event, and its failure is the
last event. -/
theorem callHandler_apply {table : ActionTable σ} {d : Dispatch} {handler : Handler σ}
    (h : table.handler? d.id = some handler) (ctx : Context σ) (n : Nat) (w : σ) :
    callHandler table ctx d n w =
      match handler d.payload ctx n w with
      | ⟨.returned v, signals, w⟩ =>
        (Run.ofFallible (substepsOf d v) n w).after (called d signals)
      | ⟨.raised e, signals, w⟩ => ⟨.raised e, called d signals ++ [.raised e], w⟩
      | ⟨.unfinished, signals, w⟩ => ⟨.unfinished, called d signals, w⟩ := by
  rcases hrun : handler d.payload ctx n w with ⟨v | e | _, signals, w'⟩
  all_goals
    simp only [callHandler, ActionTable.lookup, h, liftM_eq, Run.ofFallible, bind_apply, Run.pure,
      Run.emit, Run.rescue, ofHandler, Run.mapEvents, hrun]
  · -- Nothing is read where the value stands for no steps at all.
    unfold substepsOf
    split
    · simp [Trail.after, called]
    · simp [Trail.after, called, Pure.pure, Run.pure]
  · simp [called, Run.raise]
  · simp [called]

/-- The look-up and the reading of the returned steps happen without an event. -/
theorem callHandler_ensures {R : List Signal → Ending Value → Prop}
    {P : List Event → Ending (List Step) → Prop} {table : ActionTable σ} {ctx : Context σ}
    {d : Dispatch}
    (hjob : ∀ handler, table.handler? d.id = some handler → (handler d.payload ctx).Ensures R)
    (unknown : table.handler? d.id = none → P [] (.raised (.unknownAction d.id)))
    (returned : ∀ es v steps, R es (.returned v) → substepsOf d v = .ok steps →
      P (.dispatched d.ns d.verb d.payload :: es.map .handler) (.returned steps))
    (unread : ∀ es v e, R es (.returned v) → substepsOf d v = .error e →
      P (.dispatched d.ns d.verb d.payload :: es.map .handler) (.raised e))
    (raised : ∀ es e, R es (.raised e) →
      P (.dispatched d.ns d.verb d.payload :: (es.map .handler ++ [.raised e])) (.raised e))
    (unfinished : ∀ es, R es .unfinished →
      P (.dispatched d.ns d.verb d.payload :: es.map .handler) .unfinished) :
    (callHandler table ctx d).Ensures P := by
  cases hhandler : table.handler? d.id with
  | none =>
    unfold callHandler ActionTable.lookup
    rw [hhandler]
    exact Ensures.raise (unknown hhandler)
  | some handler =>
    intro n w
    have h := hjob handler hhandler n w
    rw [callHandler_apply hhandler]
    rcases hrun : handler d.payload ctx n w with ⟨v | e | _, es, w'⟩
    all_goals rw [hrun] at h
    · cases hread : substepsOf d v with
      | ok steps =>
        simpa [hread, Run.ofFallible, Run.pure, called] using returned es v steps h hread
      | error e => simpa [hread, Run.ofFallible, Run.raise, called] using unread es v e h hread
    · exact raised es e h
    · exact unfinished es h

theorem callHandler_emits (table : ActionTable σ) (ctx : Context σ) (d : Dispatch) :
    (callHandler table ctx d).Emits Event.OfCall := by
  refine callHandler_ensures (R := fun _ _ => True) (fun _ _ _ _ => trivial) ?_ ?_ ?_ ?_ ?_
  all_goals simp [Event.OfCall, or_imp, forall_and]

/-- Whatever runs the substeps, an action leaves no event of recovery. -/
theorem action_emits (runSteps : List Step → Flow σ Unit) (table : ActionTable σ)
    (ctx : Context σ) (a : Action) : (action runSteps table ctx a).Emits Event.OfAction := by
  unfold action
  split
  · exact refuse_ensures (by simp) (by simp)
  · refine Emits.bind (Emits.rescue ((callHandler_emits _ _ _).mono fun _ => Event.OfCall.ofAction)
      fun e => ?_) fun steps => ?_
    · exact Ensures.raise (by simp)
    · split
      · exact Ensures.pure (by simp)
      · exact inPart_emits rfl (fun _ _ _ _ => rfl) rfl

theorem actions_emits (runSteps : List Step → Flow σ Unit) (table : ActionTable σ)
    (ctx : Context σ) (as : List Action) :
    (actions runSteps table ctx as).Emits Event.OfAction :=
  Emits.each fun a _ => action_emits runSteps table ctx a

end Flow

/-! ## Ending early -/

namespace Workflow

/-- What a workflow leaves behind when it is ended early. -/
def endEvents (cause : Fault) : List Event :=
  [.ended (.logged ⟨.warning, "interpreter", "Aborting run: " ++ cause.text⟩),
    .ended (.notified .idle)]

/-- What composes carries over from steps to the values that are read as steps one by one. -/
theorem runValues_meets {P : List Event → Ending Unit → Prop} (hP : Composes P)
    (fails : ∀ e, P [] (.raised e)) {wf : Workflow σ} (hsteps : ∀ ss, (wf.runSteps ss).Meets P)
    (listed : Value) : (wf.runValues listed).Meets P := by
  refine Ensures.ofFallible_bind (fun vs _ => hP.each fun v _ => ?_) fun e _ => fails e
  exact Ensures.ofFallible_bind (fun s _ => hsteps [s]) fun e _ => fails e

/-- What is left after a run is what a workflow says that is ended early, and nothing if the run
returned. -/
theorem settle_events (wf : Workflow σ) (flow : Flow σ Unit) (n : Nat) (w : σ) :
    ∃ closing, (wf.settle flow n w).events = (flow n w).events ++ closing ∧
      (closing = [] ∨ ∃ c, closing = endEvents c) ∧
      ((flow n w).ending = .returned () →
        closing = [] ∧ (wf.settle flow n w).ending = .returned true) := by
  unfold settle
  rw [rescue_eq_thereafter, thereafter, bind_pure_apply]
  rcases flow n w with ⟨_ | c | _, es, w'⟩
  · exact ⟨[], rfl, .inl rfl, fun _ => ⟨rfl, rfl⟩⟩
  · dsimp only [Ending.map]
    split
    · exact ⟨endEvents c, rfl, .inr ⟨c, rfl⟩, fun h => by cases h⟩
    · exact ⟨[], rfl, .inl rfl, fun h => by cases h⟩
  · exact ⟨[], rfl, .inl rfl, fun h => by cases h⟩

/-- A fault that is a termination ends the workflow early, and any other one leaves it. -/
theorem settle_ensures {P : List Event → Ending Unit → Prop} {Q : List Event → Ending Bool → Prop}
    {wf : Workflow σ} {flow : Flow σ Unit} (hf : flow.Ensures P)
    (through : ∀ es, P es (.returned ()) → Q es (.returned true))
    (ended : ∀ es c, c.isTermination → P es (.raised c) → Q (es ++ endEvents c) (.returned false))
    (raised : ∀ es c, c.isTermination = false → P es (.raised c) → Q es (.raised c))
    (unfinished : ∀ es, P es .unfinished → Q es .unfinished) : (wf.settle flow).Ensures Q := by
  have hdone : (do flow; return true : Flow σ Bool).Ensures fun es o =>
      (∀ b, o = .returned b → b = true ∧ P es (.returned ())) ∧
      (∀ c, o = .raised c → P es (.raised c)) ∧ (o = .unfinished → P es .unfinished) := by
    refine Ensures.bind hf (fun es _ h => Ensures.pure ?_) (fun es c h => ?_) fun es h => ?_
    · simpa using h
    · simpa using h
    · simpa using h
  refine Ensures.rescue hdone (fun es b h => ?_) (fun es c h => ?_) fun es h => ?_
  · obtain ⟨rfl, hthrough⟩ := h.1 b rfl
    exact through es hthrough
  · split
    · next hc => exact fun n w => ended es c hc (h.2.1 c rfl)
    · next hc => exact Ensures.raise (by simpa using raised es c (by simpa using hc) (h.2.1 c rfl))
  · exact unfinished es (h.2.2 rfl)

end Workflow

/-! ## A plain workflow -/

/-- A shell that shows nothing and gives one answer to every question, with tools that do
nothing. -/
def Host.answering (decision : Decision) : Host σ where
  notify _ w := w
  decide _ := return decision
  pause := return ()
  tools := {
    hasAccess := fun _ => return true
    perform := fun _ _ => return ()
    systemImage := none
    download := fun _ _ => return ()
    checkFile := fun _ _ => return true
    unpack := fun _ _ => return ()
    makeDirectories := fun _ => return ()
    copyFile := fun _ _ => return () }

/-- A workflow on such a host, with one namespace. -/
def Workflow.plain (decision : Decision) (verbs : Verbs σ) : Workflow σ where
  table := ⟨[("t", verbs)]⟩
  ctx := {
    device := default
    system := default
    settings := {}
    host := .answering decision
    cache := default }

end Reflash
