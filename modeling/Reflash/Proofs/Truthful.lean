import Mathlib
import Reflash.Proofs.Kill
import Reflash.Proofs.Questions
import Reflash.Proofs.Start

set_option autoImplicit false

/-! # Questions tell the truth

A question about a step stands among the events of that step, after a start of the step whose
actions failed, and what recovery makes of that failure explains it (`Workflow.Truthful`). That
unlocking was tried is remembered across the starts of a step, so what was seen of the earlier
starts matters, too.

The questions of the steps below a step are inside of `within`, and are about those steps, which the
handler of an action returned. So every question of a run is about one step of the list, or of a list
that was returned at some depth, and true of what was seen of that step (`Workflow.AskedOf`,
`Workflow.run_asks_truly`). -/

namespace Reflash

open Run

variable {σ : Type}

namespace Workflow

variable {wf : Workflow σ} {runSteps : List Step → Flow σ Unit}

/-! ## The questions of one step -/

/-- A question about a step is true of what was seen of the step before it: its actions were started
and failed, and recovery, which was then asked about that failure, explains the question. -/
inductive Truthful (wf : Workflow σ) (runSteps : List Step → Flow σ Unit) (s : Step) :
    List Event → PromptRequest → Prop
  | mk {earlier acts rec : List Event} {text : String} {f : ActionFailure} {q : PromptRequest}
    (failed : (Flow.actions runSteps wf.table wf.ctx s.actions).Leaves acts
      (.raised (.inAction f.id f.cause)))
    (asks : Recovery.Asks (wf.rules runSteps) s (.entered .unlock ∈ earlier) f rec q) :
    Truthful wf runSteps s (earlier ++ .started text :: (acts ++ rec)) q

/-- If the event is a question about the step, then nothing stands in for the step, and the question
is true of what was seen of it. -/
def AsksTruly (wf : Workflow σ) (runSteps : List Step → Flow σ Unit) (s : Step)
    (before : List Event) (e : Event) : Prop :=
  ∀ q, e.asks? = some q → s.optional = false ∧ s.fallback = [] ∧ wf.Truthful runSteps s before q

theorem AsksTruly.silent {s : Step} {es : List Event} (h : ∀ e ∈ es, e.asks? = none)
    {g : List Event → List Event} :
    EachAfter (fun before => wf.AsksTruly runSteps s (g before)) es :=
  .of_forall fun e he _ q hq => by cases (h e he).symm.trans hq

variable (hhost : wf.ctx.host.LeavesAsking)
include hhost

/-- One start of a step, after the `earlier` events of the same step. -/
theorem start_asksTruly (s : Step) (a : StepAttempt) :
    (wf.start runSteps s a).Ensures (Ensures.Continues (fun a es (_ : Ending Unit) =>
      ∀ earlier, (a.unlockAttempted → .entered .unlock ∈ earlier) →
        EachAfter (fun before => wf.AsksTruly runSteps s (earlier ++ before)) es) a) := by
  have pausing : (Flow.ofRecovery wf.ctx.host.pause).Emits fun e => e.asks? = none :=
    Emits.mapEvents hhost.pause
  have acting := (Ensures.leaves (Flow.actions runSteps wf.table wf.ctx s.actions)).and
    ((Flow.actions_emits runSteps wf.table wf.ctx s.actions).mono fun _ => Event.OfAction.asks?)
  have handling (f : ActionFailure) : (Recovery.handle (wf.rules runSteps) f s a).Ensures
      fun es o => ∀ unlocked : Prop, (a.unlockAttempted → unlocked) →
        Recovery.Handles (wf.rules runSteps) s unlocked f es o :=
    fun n w _ ha => Recovery.handle_handles hhost ha n w
  refine (start_ensures pausing acting handling).mono fun es o h => ?_
  -- What recovery asks comes after the events of the start, all of which are no questions.
  have explained {pre acts rec : List Event} {text id : String} {c : Fault}
      {o : Ending (Resolution × StepAttempt)} (hj : ∀ e ∈ pre, e.asks? = none)
      (hacts : (Flow.actions runSteps wf.table wf.ctx s.actions).Leaves acts
        (.raised (.inAction id c)) ∧ ∀ e ∈ acts, e.asks? = none)
      {earlier : List Event} (hrec : Recovery.Handles (wf.rules runSteps) s
        (.entered .unlock ∈ earlier ++ pre) ⟨id, c⟩ rec o) :
      EachAfter (fun before => wf.AsksTruly runSteps s (earlier ++ before))
        (pre ++ .started text :: (acts ++ rec)) := by
    refine EachAfter.append (.silent hj) (EachAfter.cons (fun q hq => by cases hq)
      (EachAfter.append (.silent hacts.2) (hrec.1.mono fun before e h q hq => ?_)))
    obtain ⟨optional, fallback, hasks⟩ := h q hq
    have htrue : wf.Truthful runSteps s (earlier ++ pre ++ .started text :: (acts ++ before)) q :=
      .mk hacts.1 hasks
    exact ⟨optional, fallback, by simpa using htrue⟩
  have unlocked {earlier pre : List Event} (ha : a.unlockAttempted → .entered .unlock ∈ earlier) :
      a.unlockAttempted → .entered .unlock ∈ earlier ++ pre :=
    fun h => List.mem_append_left _ (ha h)
  cases h with
  | unreached hp ho => exact .stop (fun _ _ => .silent hp) ho
  | undecided hp | unshown hp => exact fun _ _ => .silent hp
  | skipped hj =>
    exact fun _ _ => .silent (List.forall_mem_append.mpr ⟨hj.paused, by simp [Event.asks?]⟩)
  | through hj ha =>
    exact fun _ _ => .silent (List.forall_mem_append.mpr ⟨hj.paused,
      List.forall_mem_cons.mpr ⟨rfl, ha.2⟩⟩)
  | broken hj ha ho =>
    exact .stop (fun _ _ => .silent (List.forall_mem_append.mpr ⟨hj.paused,
      List.forall_mem_cons.mpr ⟨rfl, ha.2⟩⟩)) ho
  | unhandled hj ha hr heq ho =>
    exact .stop (fun _ hearlier => explained hj.paused ha (hr _ (unlocked hearlier))) ho
  | handled hj ha hr =>
    exact fun _ hearlier => explained hj.paused ha (hr _ (unlocked hearlier))
  | @replayed pre acts rec text id c a' hj ha hr =>
    intro es' _ hrest earlier hearlier
    have hes : EachAfter (fun before => wf.AsksTruly runSteps s (earlier ++ before))
        (pre ++ .started text :: (acts ++ rec)) := explained hj.paused ha (hr _ (unlocked hearlier))
    have hreplayed : EachAfter (fun before => wf.AsksTruly runSteps s
        (earlier ++ (pre ++ .started text :: (acts ++ rec) ++ before)))
        [.replayed text (a'.replays + 1)] := .silent (by simp [Event.asks?])
    have hentered : a'.unlockAttempted →
        .entered .unlock ∈ earlier ++ (pre ++ .started text :: (acts ++ rec) ++
          [.replayed text (a'.replays + 1)]) := by
      intro hattempted
      rcases (hr _ hearlier).2 _ _ rfl hattempted with h | h
      · exact List.mem_append_left _ h
      · simp [h]
    have h := (hes.append hreplayed).append (by simpa using hrest _ hentered)
    simpa using h

/-- Every question about a step is true of what was seen of it before. -/
theorem step_asksTruly (s : Step) :
    (wf.step runSteps s).Ensures fun es _ => EachAfter (wf.AsksTruly runSteps s) es := by
  refine Ensures.mono (Ensures.repeatFrom (fun _ _ _ => .silent (by simp))
    (start_asksTruly hhost s) {}) fun es o h => ?_
  exact h [] (by simp)

omit hhost

/-! ## Where in a run a question is put -/

/-- An event of a run of steps, which happens while the step `s` of the list is run: those before it
are through, and `own` is what the step has left so far. -/
inductive During (wf : Workflow σ) (runSteps : List Step → Flow σ Unit) (n : Nat) (w : σ) :
    List Step → Step → List Event → List Event → Event → Prop
  | mk {ss₁ ss₂ : List Step} {s : Step} {prior own rest : List Event} {e : Event} {w₁ : σ}
    (through : Run.each (wf.step runSteps) ss₁ n w = ⟨.returned (), prior, w₁⟩)
    (ran : (wf.step runSteps s n w₁).events = own ++ e :: rest) :
    During wf runSteps n w (ss₁ ++ s :: ss₂) s own (prior ++ own) e

/-- An event of actions that happens while the steps are run which the handler of one of them returned.
`R` says what such a run has to do with the event. -/
inductive Nested (wf : Workflow σ) (R : List Step → Nat → σ → List Event → Event → Prop)
    (as : List Action) : List Event → Event → Prop
  | mk (earlier : List Event) {call before : List Event} {e : Event} {a : Action} {d : Dispatch}
    {ss : List Step} {n : Nat} {w w' : σ} (ha : a ∈ as) (hd : a.dispatch = .ok d)
    (hcall : Flow.callHandler wf.table wf.ctx d n w = ⟨.returned ss, call, w'⟩)
    (hbelow : R ss n w' before e) :
    Nested wf R as (earlier ++ (call ++ .entered .substeps :: before.map (.within .substeps)))
      (.within .substeps e)

/-- An event of a step that happens in the steps below it: below its own actions, or below those that
recovery carries out for its sake. -/
inductive Below (wf : Workflow σ) (R : List Step → Nat → σ → List Event → Event → Prop)
    (s : Step) : List Event → Event → Prop
  | own {before : List Event} {e : Event} (h : wf.Nested R s.actions before e) :
    Below wf R s before e
  | stands (earlier : List Event) {before : List Event} {e : Event} {part : Part}
    {as : List Action} (hpart : wf.Stands s part as) (h : wf.Nested R as before e) :
    Below wf R s (earlier ++ before.map (.within part)) (.within part e)

/-- The event is the question, and it is about the step: nothing stands in for the step, and the
question is true of what was seen of it. -/
structure AsksAbout (wf : Workflow σ) (runSteps : List Step → Flow σ Unit) (q : PromptRequest)
    (s : Step) (own : List Event) (e : Event) : Prop where
  asks : e.asks? = some q
  optional : s.optional = false
  fallback : s.fallback = []
  truthful : wf.Truthful runSteps s own q

/-- A question in a run of steps, with what was seen before it: it is put while one of the steps is
run, and is about that step or, in the same way, about one of the steps below it. -/
def AskedOf (wf : Workflow σ) (q : PromptRequest) :
    Nat → List Step → Nat → σ → List Event → Event → Prop
  | 0, _, _, _, _, _ => False
  | depth + 1, ss, n, w, before, e => ∃ s own,
    wf.During (wf.runStepsTo depth) n w ss s own before e ∧
      (wf.AsksAbout (wf.runStepsTo depth) q s own e ∨ wf.Below (wf.AskedOf q depth) s own e)

/-- A question in a run of a workflow: it is put in the run of the steps, or, where values are read as
steps one by one, in the run of the step that one of them is read as. -/
inductive AskedIn (wf : Workflow σ) (q : PromptRequest) (n : Nat) (w : σ) :
    Flow σ Bool → List Event → Event → Prop
  | steps {ss : List Step} {before : List Event} {e : Event} (h : wf.AskedOf q n ss n w before e) :
    AskedIn wf q n w (wf.run ss) before e
  | values {listed v : Value} {vs₁ vs₂ : List Value} {s : Step} {prior before : List Event}
    {e : Event} {w₁ : σ} (hitems : listed.items = .ok (vs₁ ++ v :: vs₂))
    (through : Run.each (fun v => do wf.runSteps [← Step.ofValue "step" v]) vs₁ n w =
      ⟨.returned (), prior, w₁⟩)
    (hread : Step.ofValue "step" v = .ok s) (h : wf.AskedOf q n [s] n w₁ before e) :
    AskedIn wf q n w (wf.settle (wf.runValues listed)) (prior ++ before) e

/-! ## The questions below a step -/

section

variable {q : PromptRequest} {R : List Step → Nat → σ → List Event → Event → Prop}

theorem Nested.prepend {as : List Action} {before : List Event} {e : Event}
    (h : wf.Nested R as before e) (es : List Event) : wf.Nested R as (es ++ before) e := by
  obtain ⟨earlier, ha, hd, hcall, hbelow⟩ := h
  rw [← List.append_assoc]
  exact ⟨es ++ earlier, ha, hd, hcall, hbelow⟩

theorem Below.prepend {s : Step} {before : List Event} {e : Event} (h : wf.Below R s before e)
    (es : List Event) : wf.Below R s (es ++ before) e := by
  cases h with
  | own h => exact .own (h.prepend es)
  | stands earlier hpart h =>
    rw [← List.append_assoc]
    exact .stands (es ++ earlier) hpart h

/-- Where the question is among the events of actions, it is put below them. -/
def AsksNested (wf : Workflow σ) (R : List Step → Nat → σ → List Event → Event → Prop)
    (q : PromptRequest) (as : List Action) : List Event → Prop :=
  EachAfter fun before e => e.question? = some q → wf.Nested R as before e

/-- Where the question is among the events of a step that are not about the step itself, it is put
below it. -/
def AsksBelow (wf : Workflow σ) (R : List Step → Nat → σ → List Event → Event → Prop)
    (q : PromptRequest) (s : Step) : List Event → Prop :=
  EachAfter fun before e => e.asks? = none → e.question? = some q → wf.Below R s before e

theorem AsksNested.silent {as : List Action} {es : List Event} (h : ∀ e ∈ es, e.question? = none)
    {g : List Event → List Event} :
    EachAfter (fun before e => e.question? = some q → wf.Nested R as (g before) e) es :=
  .of_forall fun e he _ hq => by cases (h e he).symm.trans hq

theorem AsksBelow.silent {s : Step} {es : List Event} (h : ∀ e ∈ es, e.question? = e.asks?) :
    wf.AsksBelow R q s es :=
  .of_forall fun e he _ hnone hq => by
    rw [h e he, hnone] at hq
    cases hq

/-- What is asked below the actions of a step is asked below the step. -/
theorem AsksNested.below {s : Step} {es : List Event} (h : wf.AsksNested R q s.actions es) :
    wf.AsksBelow R q s es :=
  h.mono fun _ _ h _ hq => .own (h hq)

theorem AsksNested.within {s : Step} {part : Part} {as : List Action} {es : List Event}
    (hpart : wf.Stands s part as) (h : wf.AsksNested R q as es) :
    wf.AsksBelow R q s (es.map (.within part)) :=
  EachAfter.map _ (h.mono fun _ _ h _ hq => .stands [] hpart (h hq))

theorem asksNested_composes (wf : Workflow σ)
    (R : List Step → Nat → σ → List Event → Event → Prop) (q : PromptRequest) (as : List Action) :
    Composes fun es (_ : Ending Unit) => wf.AsksNested R q as es where
  nil := .nil
  unfinished := .nil
  append h h' := h.append (h'.mono fun _ _ h hq => (h hq).prepend _)

theorem asksBelow_composes (wf : Workflow σ)
    (R : List Step → Nat → σ → List Event → Event → Prop) (q : PromptRequest) (s : Step) :
    Composes fun es (_ : Ending Unit) => wf.AsksBelow R q s es where
  nil := .nil
  unfinished := .nil
  append h h' := h.append (h'.mono fun _ _ h hnone hq => (h hnone hq).prepend _)

theorem emit_asksBelow {s : Step} {e : Event} (h : e.question? = e.asks?) :
    (Run.emit e : Flow σ Unit).Meets fun es _ => wf.AsksBelow R q s es :=
  Ensures.emit (.silent (by simpa using h))

theorem inPart_asksBelow {s : Step} {part : Part} {as : List Action} (hpart : wf.Stands s part as)
    {flow : Flow σ Unit} (hflow : flow.Meets fun es _ => wf.AsksNested R q as es) :
    (Flow.inPart part flow).Meets fun es _ => wf.AsksBelow R q s es := by
  have hP := asksBelow_composes wf R q s
  have hwithin : (Flow.inside part flow).Meets fun es _ => wf.AsksBelow R q s es :=
    Flow.inside_ensures (hflow.mono fun _ _ h => h.within hpart)
  exact hP.bind (emit_asksBelow rfl) fun _ => hP.bind hwithin fun _ =>
    hP.bind_pure (emit_asksBelow rfl) _

variable {runSteps : List Step → Flow σ Unit}
  (hsteps : ∀ ss n w, EachAfter (fun before e => e.question? = some q → R ss n w before e)
    (runSteps ss n w).events)
include hsteps

/-- The call of a handler asks nothing; the steps that it returns are run right after it. -/
theorem action_asksNested {as : List Action} {a : Action} (ha : a ∈ as) :
    (Flow.action runSteps wf.table wf.ctx a).Ensures fun es _ => wf.AsksNested R q as es := by
  cases hd : a.dispatch with
  | error e =>
    obtain ⟨e', heq⟩ := Flow.refuse_eq_raise (σ := σ) e
    unfold Flow.action
    rw [hd]
    show (Flow.refuse e : Flow σ Unit).Ensures _
    rw [heq]
    exact Ensures.raise .nil
  | ok d =>
    rw [Flow.action_eq hd]
    intro n w
    have silent : ∀ e ∈ (Flow.callHandler wf.table wf.ctx d n w).events, e.question? = none := by
      intro e he
      have hcall := Flow.callHandler_emits wf.table wf.ctx d n w e he
      cases e <;> first | rfl | exact absurd hcall id
    rw [bind_apply, Run.rescue]
    rcases hcall : Flow.callHandler wf.table wf.ctx d n w with ⟨ss | e | _, call, w'⟩
    all_goals rw [hcall] at silent
    · dsimp only
      cases ss with
      | nil => exact .append (AsksNested.silent silent) .nil
      | cons s ss =>
        show wf.AsksNested R q as
          (call ++ (Flow.inPart .substeps (runSteps (s :: ss)) n w').events)
        rw [Flow.inPart_apply]
        refine .append (AsksNested.silent silent) (.cons (fun hq => by cases hq) (.append (.map _ ?_) ?_))
        · refine (hsteps (s :: ss) n w').mono fun before e h hq => ?_
          exact .mk [] ha hd hcall (h hq)
        · refine .of_forall fun e he _ hq => ?_
          rw [Flow.eq_left_of_mem_leaving he] at hq
          cases hq
    · exact .append (AsksNested.silent silent) .nil
    · exact AsksNested.silent silent

theorem actions_asksNested (as : List Action) :
    (Flow.actions runSteps wf.table wf.ctx as).Meets fun es _ => wf.AsksNested R q as es :=
  (asksNested_composes wf R q as).each fun _ ha => action_asksNested hsteps ha

theorem handle_asksBelow (f : ActionFailure) (s : Step) (a : StepAttempt) :
    (Recovery.handle (wf.rules runSteps) f s a).Meets fun es _ => wf.AsksBelow R q s es := by
  have hP : Recovery.Sustains (wf.rules runSteps) fun es _ => wf.AsksBelow R q s es := {
    toComposes := asksBelow_composes wf R q s
    logs := fun _ _ => emit_asksBelow rfl
    asks := fun prompt f step data => by
      refine Recovery.ask_ensures (R := fun _ _ => True) (fun _ _ => trivial) ?_ ?_ ?_
      all_goals
        intros
        exact .silent (by simp [Event.question?, or_imp, forall_and])
    declines := fun _ => .nil }
  have acting (as : List Action) : (Flow.actions runSteps wf.table wf.ctx as).Meets
      fun es _ => wf.AsksNested R q as es :=
    actions_asksNested hsteps as
  have running : (Recovery.runUnlock (wf.rules runSteps) s).Meets
      fun es _ => wf.AsksBelow R q s es := by
    refine Ensures.ofFallible_bind (fun applies happlies => ?_) fun c _ => .nil
    cases applies with
    | false => exact hP.bind_pure (hP.logs _ _) _
    | true =>
      refine hP.repeatFrom (fun _ => hP.unlockRound s ?_ fun _ _ => ?_) ()
      · refine Recovery.recoverable_of_composes hP.toComposes (Flow.inside_ensures ?_)
        exact (acting _).mono fun _ _ h => h.within (.unlock happlies)
      · exact inPart_asksBelow (.unlockFallback happlies) (acting _)
  have unlocking :
      (Recovery.unlock (wf.rules runSteps) f s).Meets fun es _ => wf.AsksBelow R q s es :=
    hP.unlock f s (emit_asksBelow rfl) running (emit_asksBelow rfl)
  have reconnecting (count : Nat) : (Recovery.reconnect (wf.rules runSteps) f s count).Meets
      fun es _ => wf.AsksBelow R q s es :=
    hP.reconnect f s count (Recovery.recoverable_of_composes hP.toComposes
      (inPart_asksBelow .reconnect (acting _)))
  obtain ⟨course, a', hcourse, heq⟩ := Recovery.handle_course (wf.rules runSteps) f s a
  rw [heq]
  exact hP.bind (emit_asksBelow rfl) fun _ => hP.bind_pure (hP.course hcourse (fun _ => .nil)
    (inPart_asksBelow .fallback (acting _)) unlocking reconnecting) _

theorem start_asksBelow (s : Step) (a : StepAttempt) :
    (wf.start runSteps s a).Meets fun es _ => wf.AsksBelow R q s es := by
  have hP := asksBelow_composes wf R q s
  have pausing : (Flow.ofRecovery wf.ctx.host.pause).Meets fun es _ => wf.AsksBelow R q s es := by
    refine Ensures.mono (Flow.ofRecovery_emits _) fun es _ hes => .silent fun e he => ?_
    obtain ⟨signal, rfl⟩ := hes e he
    rfl
  have acting : (Flow.actions runSteps wf.table wf.ctx s.actions).Meets
      fun es _ => wf.AsksBelow R q s es :=
    (actions_asksNested hsteps s.actions).mono fun _ _ h => h.below
  have alone (e : Event) (he : e.question? = e.asks?) : wf.AsksBelow R q s [e] :=
    .silent (by simpa using he)
  have handling (f : ActionFailure) : (Recovery.handle (wf.rules runSteps) f s a).Meets
      fun es _ => wf.AsksBelow R q s es :=
    handle_asksBelow hsteps f s a
  refine (start_ensures pausing acting handling).mono fun es o h => ?_
  have append {es es' : List Event} (h : wf.AsksBelow R q s es) (h' : wf.AsksBelow R q s es') :
      wf.AsksBelow R q s (es ++ es') := hP.append (o := .returned ()) h h'
  cases h with
  | unreached hp | undecided hp | unshown hp => exact hp
  | skipped hj => exact append hj.paused (alone _ rfl)
  | through hj ha | broken hj ha => exact append hj.paused (append (alone (.started _) rfl) ha)
  | unhandled hj ha hr | handled hj ha hr =>
    exact append hj.paused (append (alone (.started _) rfl) (append ha hr))
  | replayed hj ha hr =>
    exact append hj.paused (append (alone (.started _) rfl) (append ha (append hr (alone _ rfl))))

theorem step_asksBelow (s : Step) :
    (wf.step runSteps s).Ensures fun es _ => wf.AsksBelow R q s es :=
  (asksBelow_composes wf R q s).repeatFrom (fun a => start_asksBelow hsteps s a) {}

end

/-! ## The questions of a run -/

variable (hhost : wf.ctx.host.LeavesAsking) {q : PromptRequest}
include hhost

/-- Every question in a run of steps is one about a step of the list, or about one below. -/
theorem runStepsTo_asked (depth : Nat) (ss : List Step) (n : Nat) (w : σ) :
    EachAfter (fun before e => e.question? = some q → wf.AskedOf q depth ss n w before e)
      (wf.runStepsTo depth ss n w).events := by
  induction depth generalizing ss n w with
  | zero => exact .nil
  | succ depth ih =>
    intro before e after hevents hq
    obtain ⟨ss₁, s, ss₂, w₁, prior, own, rest, rfl, rfl, through, ran⟩ := each_events_split hevents
    refine ⟨s, own, .mk through ran, ?_⟩
    cases hasks : e.asks? with
    | none => exact .inr (step_asksBelow ih s n w₁ own e rest ran hasks hq)
    | some q' =>
      -- The step itself is asked about, so this is its own question.
      obtain rfl : q' = q := by
        cases e <;> first | exact Option.some.inj (hasks.symm.trans hq) | cases hasks
      obtain ⟨optional, fallback, truthful⟩ := step_asksTruly hhost s n w₁ own e rest ran q' hasks
      exact .inl ⟨hasks, optional, fallback, truthful⟩

omit hhost

/-- What a workflow says in the end is no question. -/
theorem settle_asked {T : List Event → Event → Prop} {flow : Flow σ Unit} {n : Nat} {w : σ}
    (h : EachAfter (fun before e => e.question? = some q → T before e) (flow n w).events) :
    EachAfter (fun before e => e.question? = some q → T before e) (wf.settle flow n w).events := by
  obtain ⟨closing, hevents, hclosing, -⟩ := wf.settle_events flow n w
  rw [hevents]
  refine h.append (.of_forall fun e he _ hq => ?_)
  obtain rfl | ⟨c, rfl⟩ := hclosing
  · cases he
  · rcases List.mem_pair.mp he with rfl | rfl <;> cases hq

/-- The questions of recovery are true. Whenever recovery puts a question in a run, it is put while a
step of the list, or of a list that a handler returned, is run; that step is neither optional nor has a
fallback, and the question names the failure with which the actions of that step ended before recovery
began, or that of the unlock flow that was run for it since; and the question is one for failures of
that kind. -/
theorem run_asks_truly {flow : Flow σ Bool} (hflow : wf.Runs flow)
    (hhost : wf.ctx.host.LeavesAsking) (n : Nat) (w : σ) {before after : List Event} {e : Event}
    (hevents : (flow n w).events = before ++ e :: after) (hq : e.question? = some q) :
    wf.AskedIn q n w flow before e := by
  refine (?_ : EachAfter (fun before e => e.question? = some q → wf.AskedIn q n w flow before e)
    (flow n w).events) before e after hevents hq
  cases hflow with
  | steps ss =>
    exact settle_asked ((runStepsTo_asked hhost n ss n w).mono fun _ _ h hq => .steps (h hq))
  | values listed =>
    refine settle_asked fun before e after hevents hq => ?_
    unfold runValues at hevents
    cases hitems : listed.items with
    | error e' =>
      rw [hitems] at hevents
      cases before <;> cases hevents
    | ok vs =>
      rw [hitems, ofFallible_ok_bind] at hevents
      obtain ⟨vs₁, v, vs₂, w₁, prior, own, rest, rfl, rfl, through, ran⟩ :=
        each_events_split hevents
      cases hread : Step.ofValue "step" v with
      | error e' =>
        rw [hread] at ran
        cases own <;> cases ran
      | ok s =>
        rw [hread, ofFallible_ok_bind] at ran
        exact .values hitems through hread (runStepsTo_asked hhost n [s] n w₁ own e rest ran hq)

/-- After an automatic reconnection that failed, the question is still about the action for which
the reconnection was tried. -/
theorem lost_device_asked_of :
    let wf : Workflow Unit := .plain ⟨.abort, .null⟩
      [("op", some fun _ _ => Run.raise (.failure .deviceOffline "gone"))]
    let step : Step := { actions := [.named "t:op"] }
    ∃ before e after q, (wf.run [step] 1 ()).events = before ++ e :: after ∧
      e.question? = some q ∧ q.prompt = .connectionLost ∧ q.action = some "t:op" ∧
      q.cause = some "gone" ∧ wf.AskedIn q 1 () (wf.run [step]) before e := by
  intro wf step
  have hevents : (wf.run [step] 1 ()).events =
      [.started "\x7b\"actions\": [\x7b\"t:op\": null\x7d]\x7d", .dispatched "t" "op" .null,
        .raised (.failure .deviceOffline "gone"), .failed "t:op" (.failure .deviceOffline "gone"),
        .entered .reconnect,
        .recovery (.logged ⟨.warning, "recovery",
          "Failed to reconnect automatically: Unknown action adb:reconnect"⟩),
        .recovery (.logged ⟨.debug, "events", "Waiting for user decision: connection_lost"⟩)] ++
      .recovery (.prompted ⟨.connectionLost, [(.str "resumable", .bool false)], some "t:op",
          some [], some "gone"⟩) ::
        [.recovery (.logged ⟨.debug, "events", "User decided abort on connection_lost"⟩),
          .answered .connectionLost ⟨.abort, .null⟩,
          .ended (.logged ⟨.warning, "interpreter", "Aborting run: connection lost"⟩),
          .ended (.notified .idle)] := by cbv
  have hhost : wf.ctx.host.LeavesAsking :=
    ⟨fun _ => Ensures.pure (by simp), Ensures.pure (by simp)⟩
  exact ⟨_, _, _, _, hevents, rfl, rfl, rfl, rfl,
    run_asks_truly (.steps [step]) hhost 1 () hevents rfl⟩

end Workflow

end Reflash
