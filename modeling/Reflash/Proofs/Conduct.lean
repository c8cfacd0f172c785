import Reflash.Builtin.Table
import Reflash.Proofs.Budget
import Reflash.Proofs.Configure
import Reflash.Proofs.Start

set_option autoImplicit false

/-! # Which steps run their actions

What a workflow leaves while it runs steps (`Workflow.Conducted`): whenever a step is started, at
whatever depth and however often, its condition is decided by the one settings object of the run, and
its actions are carried out only if it holds; where it does not, the step calls nothing
(`Workflow.Ran.passed_over`). In an installation these are the settings that it was configured with
(`Installer.install_settles`). -/

namespace Reflash

open Run

variable {ε σ α β : Type}

/-! ## What a run of steps leaves -/

/-- The event is one that recovery leaves, apart from the actions that it has carried out. -/
def Event.OfRecovery : Event → Prop
  | recovery _ | failed .. | answered .. | unanswered .. => True
  | entered part | left part => part ≠ .substeps
  | _ => False

namespace Workflow

variable (wf : Workflow σ)

/-- The pause before a start of a step leaves the events and comes to the ending. -/
abbrev Pauses : List Event → Ending Unit → Prop :=
  (Flow.ofRecovery wf.ctx.host.pause).Leaves

mutual

/-- What an action leaves and how it ends: the call of its handler, and then what the steps leave that
the handler returned, if it returned any. -/
inductive Called : Action → List Event → Ending Unit → Prop
  | refused {a : Action} {e e' : Fault} (hd : a.dispatch = .error e)
    (hrefuse : (Flow.refuse e : Flow σ Unit) = Run.raise e') : Called a [] (.raised e')
  | failed {a : Action} {d : Dispatch} {call : List Event} {e : Fault} (hd : a.dispatch = .ok d)
    (hcall : wf.Calls d call (.raised e)) : Called a call (.raised (Flow.asFailureOf d.id e))
  | cut {a : Action} {d : Dispatch} {call : List Event} (hd : a.dispatch = .ok d)
    (hcall : wf.Calls d call .unfinished) : Called a call .unfinished
  | answered {a : Action} {d : Dispatch} {call : List Event} (hd : a.dispatch = .ok d)
    (hcall : wf.Calls d call (.returned [])) : Called a call (.returned ())
  | stepped {a : Action} {d : Dispatch} {call es : List Event} {ss : List Step} {o : Ending Unit}
    (hd : a.dispatch = .ok d) (hcall : wf.Calls d call (.returned ss)) (hne : ss ≠ [])
    (hss : Conducted ss es o) :
    Called a (call ++ .entered .substeps ::
      (es.map (.within .substeps) ++ Flow.leaving .substeps o)) o

/-- What actions leave that are carried out in order. -/
inductive Carried : List Action → List Event → Ending Unit → Prop
  | nil : Carried [] [] (.returned ())
  | cons {a : Action} {as : List Action} {es es' : List Event} {o : Ending Unit}
    (ha : Called a es (.returned ())) (has : Carried as es' o) : Carried (a :: as) (es ++ es') o
  | stop {a : Action} {as : List Action} {es : List Event} {o : Ending Unit}
    (ha : Called a es o) (ho : o ≠ .returned ()) : Carried (a :: as) es o

/-- What recovery leaves about the failure of a step. It goes on after actions that it has carried out,
unless they did not come to an end. -/
inductive Recovered : Step → List Event → Ending Unit → Prop
  | nil (s : Step) (o : Ending Unit) : Recovered s [] o
  | event {s : Step} {e : Event} {es : List Event} {o : Ending Unit} (he : e.OfRecovery)
    (hes : Recovered s es o) : Recovered s (e :: es) o
  | within {s : Step} {part : Part} {as : List Action} {inner es : List Event} {o o' : Ending Unit}
    (hpart : wf.Stands s part as) (has : Carried as inner o') (ho' : o' ≠ .unfinished)
    (hes : Recovered s es o) : Recovered s (inner.map (.within part) ++ es) o
  | cut {s : Step} {part : Part} {as : List Action} {inner : List Event}
    (hpart : wf.Stands s part as) (has : Carried as inner .unfinished) :
    Recovered s (inner.map (.within part)) .unfinished

/-- What a step leaves, with its replays. Only a run that is not finished may leave out what is still to
come. -/
inductive Ran : Step → List Event → Ending Unit → Prop
  | spent (s : Step) : Ran s [] .unfinished
  | unreached {s : Step} {es : List Event} {o : Ending Unit} (hp : wf.Pauses es o)
    (ho : o ≠ .returned ()) : Ran s es o
  | undecided {s : Step} {es : List Event} {e : Fault} (hp : wf.Pauses es (.returned ()))
    (hc : Condition.evaluate s.condition wf.ctx.settings.data = .error e) : Ran s es (.raised e)
  | unshown {s : Step} {es : List Event} {e : Fault} (hp : wf.Pauses es (.returned ()))
    (hs : s.describe = .error e) : Ran s es (.raised e)
  | skipped {s : Step} {es : List Event} {text : String} (hj : wf.Judged s wf.Pauses es false text) :
    Ran s (es ++ [.skipped text]) (.returned ())
  | through {s : Step} {es acts : List Event} {text : String} {o : Ending Unit}
    (hj : wf.Judged s wf.Pauses es true text) (ha : Carried s.actions acts o)
    (ho : ∀ id c, o ≠ .raised (.inAction id c)) : Ran s (es ++ .started text :: acts) o
  | recovered {s : Step} {es acts rec : List Event} {text id : String} {c : Fault}
    {o : Ending Unit} (hj : wf.Judged s wf.Pauses es true text)
    (ha : Carried s.actions acts (.raised (.inAction id c))) (hr : Recovered s rec o) :
    Ran s (es ++ .started text :: (acts ++ rec)) o
  | replayed {s : Step} {es acts rec rest : List Event} {text id : String} {c : Fault}
    {o : Ending Unit} (hj : wf.Judged s wf.Pauses es true text)
    (ha : Carried s.actions acts (.raised (.inAction id c))) (hr : Recovered s rec (.returned ()))
    (count : Nat) (hrest : Ran s rest o) :
    Ran s (es ++ .started text :: (acts ++ (rec ++ .replayed text count :: rest))) o

/-- What steps leave that are run in order. -/
inductive Conducted : List Step → List Event → Ending Unit → Prop
  | spent (ss : List Step) : Conducted ss [] .unfinished
  | nil : Conducted [] [] (.returned ())
  | cons {s : Step} {ss : List Step} {es es' : List Event} {o : Ending Unit}
    (hs : Ran s es (.returned ())) (hss : Conducted ss es' o) : Conducted (s :: ss) (es ++ es') o
  | stop {s : Step} {ss : List Step} {es : List Event} {o : Ending Unit}
    (hs : Ran s es o) (ho : o ≠ .returned ()) : Conducted (s :: ss) es o

end

/-! ## Runs of actions -/

variable {wf}

/-- Recovery goes on after whatever came to an end. -/
theorem Recovered.append {s : Step} {es es' : List Event} {o o' : Ending Unit}
    (ho : o ≠ .unfinished) :
    wf.Recovered s es o → wf.Recovered s es' o' → wf.Recovered s (es ++ es') o'
  | .nil _ _, h' => h'
  | .event he hes, h' => .event he (hes.append ho h')
  | .within hpart has hinner hes, h' => by
    rw [List.append_assoc]
    exact .within hpart has hinner (hes.append ho h')
  | .cut _ _, _ => absurd rfl ho

theorem Recovered.of_events {s : Step} {es : List Event} {o : Ending Unit}
    (h : ∀ e ∈ es, e.OfRecovery) : wf.Recovered s es o := by
  induction es with
  | nil => exact .nil s o
  | cons e es ih =>
    obtain ⟨he, hes⟩ := List.forall_mem_cons.mp h
    exact .event he (ih hes)

/-- Recovery may end with actions that it has carried out, if they did not return. -/
theorem Recovered.inside {s : Step} {part : Part} {as : List Action} {es : List Event}
    {o : Ending Unit} (hpart : wf.Stands s part as) (has : wf.Carried as es o) :
    wf.Recovered s (es.map (.within part)) o := by
  by_cases ho : o = .unfinished
  · subst ho
    exact .cut hpart has
  · have h : wf.Recovered s (es.map (.within part) ++ []) o := .within hpart has ho (.nil s o)
    rwa [List.append_nil] at h

theorem Recovered.composes (s : Step) : Composes (wf.Recovered s) where
  nil := .nil s _
  unfinished := .nil s _
  append h h' := h.append (by simp) h'

/-- How recovery ends is not told by what it leaves, as long as it comes to an end. -/
theorem Recovered.ending {s : Step} {es : List Event} {e : Fault} (h : wf.Recovered s es (.raised e))
    (o : Ending Unit) : wf.Recovered s es o := by
  have h' := h.append (by simp) (.nil s o)
  rwa [List.append_nil] at h'

/-- What is known of an action when its handler is through: what the handler did if it returned, and
otherwise that this is all of the action. -/
def CalledBy (wf : Workflow σ) (a : Action) (d : Dispatch) (es : List Event) :
    Ending (List Step) → Prop
  | .returned ss => wf.Calls d es (.returned ss)
  | .raised e => wf.Called a es (.raised e)
  | .unfinished => wf.Called a es .unfinished

section

variable {runSteps : List Step → Flow σ Unit}
  (hsteps : ∀ ss, (runSteps ss).Ensures (wf.Conducted ss))
include hsteps

theorem action_called (a : Action) :
    (Flow.action runSteps wf.table wf.ctx a).Ensures (wf.Called a) := by
  cases hd : a.dispatch with
  | error e =>
    obtain ⟨e', hrefuse⟩ := Flow.refuse_eq_raise (σ := σ) e
    unfold Flow.action
    rw [hd]
    show (Flow.refuse e : Flow σ Unit).Ensures _
    rw [hrefuse]
    exact Ensures.raise (.refused hd hrefuse)
  | ok d =>
    have called : ((Flow.callHandler wf.table wf.ctx d).rescue fun e =>
        Run.raise (Flow.asFailureOf d.id e)).Ensures (wf.CalledBy a d) := by
      refine Ensures.rescue (callHandler_calls wf d) (fun es ss h => h) (fun es e h => ?_)
        fun es h => .cut hd h
      exact Ensures.raise (by rw [List.append_nil]; exact .failed hd h)
    rw [Flow.action_eq hd]
    refine Ensures.bind called (fun es ss hcall => ?_) (fun es e h => h) fun es h => h
    cases ss with
    | nil => exact Ensures.pure (by rw [List.append_nil]; exact .answered hd hcall)
    | cons s ss =>
      intro n w
      show wf.Called a (es ++ (Flow.inPart .substeps (runSteps (s :: ss)) n w).events)
        (Flow.inPart .substeps (runSteps (s :: ss)) n w).ending
      rw [Flow.inPart_apply]
      exact .stepped hd hcall (by simp) (hsteps _ n w)

theorem actions_carried (as : List Action) :
    (Flow.actions runSteps wf.table wf.ctx as).Ensures (wf.Carried as) := by
  induction as with
  | nil => exact Ensures.pure .nil
  | cons a as ih =>
    refine Ensures.bind (action_called hsteps a) (fun es _ ha n w => .cons ha (ih n w))
      (fun es e ha => .stop ha (by simp)) fun es ha => .stop ha (by simp)

/-! ## Recovery -/

theorem inPart_recovered {s : Step} {part : Part} {as : List Action} (hpart : wf.Stands s part as) :
    (Flow.inPart part (Flow.actions runSteps wf.table wf.ctx as)).Meets (wf.Recovered s) := by
  have hother : part ≠ .substeps := by cases hpart <;> exact Part.noConfusion
  refine Flow.inPart_ensures (actions_carried hsteps as) (fun es _ has => ?_) (fun es e has => ?_)
    fun es has => ?_
  · exact .event hother (.within hpart has (by simp) (.event hother (.nil s _)))
  · exact .event hother (.inside hpart has)
  · exact .event hother (.inside hpart has)

omit hsteps in
theorem sustains_recovered (s : Step) : Recovery.Sustains (wf.rules runSteps) (wf.Recovered s) where
  toComposes := Recovered.composes s
  logs level message := Ensures.emit (.event trivial (.nil s _))
  asks prompt f step data := by
    have asked (es : List Signal) : ∀ e ∈ es.map Event.recovery, e.OfRecovery := by
      intro e he
      obtain ⟨signal, -, rfl⟩ := List.mem_map.mp he
      trivial
    refine Recovery.ask_ensures (R := fun _ _ => True) (fun _ _ => trivial) (fun es d _ => ?_)
      (fun es e _ => ?_) fun es _ => .of_events (asked es)
    all_goals exact .of_events (List.forall_mem_append.mpr
      ⟨asked es, List.forall_mem_singleton.mpr trivial⟩)
  declines message := .nil s _

omit hsteps in
/-- Recovery may look at how actions ended and go on. -/
theorem recoverable_recovered {s : Step} {flow : Flow σ Unit} (h : flow.Meets (wf.Recovered s)) :
    Recovery.Recoverable (wf.Recovered s) flow :=
  Recovery.recoverable_of_append h (fun ho hes hes' => hes.append ho hes') fun hes => hes.ending _

theorem runUnlock_recovered (s : Step) :
    (Recovery.runUnlock (wf.rules runSteps) s).Meets (wf.Recovered s) := by
  have hP : Recovery.Sustains (wf.rules runSteps) (wf.Recovered s) := sustains_recovered s
  refine Ensures.ofFallible_bind (fun applies happlies => ?_) fun c _ => .nil s _
  cases applies with
  | false => exact hP.bind_pure (hP.logs _ _) _
  | true =>
    refine hP.repeatFrom (fun _ => hP.unlockRound s ?_ fun _ _ => ?_) ()
    · refine recoverable_recovered (Flow.inside_ensures ?_)
      exact (actions_carried hsteps _).mono fun es o has =>
        .inside (.unlock happlies) (o.forget_unit.symm ▸ has)
    · exact inPart_recovered hsteps (.unlockFallback happlies)

theorem handle_recovered (f : ActionFailure) (s : Step) (a : StepAttempt) :
    (Recovery.handle (wf.rules runSteps) f s a).Meets (wf.Recovered s) := by
  have hP : Recovery.Sustains (wf.rules runSteps) (wf.Recovered s) := sustains_recovered s
  have emitted {e : Event} (he : e.OfRecovery) :
      (Run.emit e : Flow σ Unit).Meets (wf.Recovered s) :=
    Ensures.emit (.event he (.nil s _))
  have unlocking : (Recovery.unlock (wf.rules runSteps) f s).Meets (wf.Recovered s) :=
    hP.unlock f s (emitted Part.noConfusion) (runUnlock_recovered hsteps s)
      (emitted Part.noConfusion)
  have reconnecting (count : Nat) :
      (Recovery.reconnect (wf.rules runSteps) f s count).Meets (wf.Recovered s) :=
    hP.reconnect f s count (recoverable_recovered (inPart_recovered hsteps .reconnect))
  obtain ⟨course, a', hcourse, heq⟩ := Recovery.handle_course (wf.rules runSteps) f s a
  rw [heq]
  refine hP.bind (emitted trivial) fun _ => hP.bind_pure ?_ _
  exact hP.course hcourse (fun _ => .nil s _) (inPart_recovered hsteps .fallback) unlocking
    reconnecting

/-! ## Steps -/

theorem start_ran (s : Step) (a : StepAttempt) :
    (wf.start runSteps s a).Ensures (Ensures.Continues (fun _ => wf.Ran s) a) := by
  refine (start_ensures (Ensures.leaves _) (actions_carried hsteps s.actions)
    fun f => handle_recovered hsteps f s a).mono fun es o h => ?_
  cases h with
  | unreached hp ho => exact .stop (.unreached hp ho) ho
  | undecided hp hc => exact .undecided hp hc
  | unshown hp hs => exact .unshown hp hs
  | skipped hj => exact .skipped hj
  | through hj ha => exact .through hj ha (by simp)
  | broken hj ha ho hne => exact .stop (.through hj ha hne) ho
  | unhandled hj ha hr heq ho => exact .stop (.recovered hj ha (heq ▸ hr)) ho
  | handled hj ha hr => exact .recovered hj ha hr
  | replayed hj ha hr =>
    intro es' o hrest
    simpa using Ran.replayed hj ha hr _ hrest

theorem step_ran (s : Step) : (wf.step runSteps s).Ensures (wf.Ran s) :=
  Ensures.repeatFrom (Q := fun _ => wf.Ran s) (fun _ => .spent s) (start_ran hsteps s) {}

theorem each_conducted (ss : List Step) :
    (Run.each (wf.step runSteps) ss).Ensures (wf.Conducted ss) := by
  induction ss with
  | nil => exact Ensures.pure .nil
  | cons s ss ih =>
    refine Ensures.bind (step_ran hsteps s) (fun es _ hs n w => .cons hs (ih n w))
      (fun es e hs => .stop hs (by simp)) fun es hs => .stop hs (by simp)

end

/-- Steps are run under the settings of the workflow, at whatever depth. -/
theorem runSteps_conducted (ss : List Step) : (wf.runSteps ss).Ensures (wf.Conducted ss) := by
  refine Ensures.withBudget fun depth => ?_
  induction depth generalizing ss with
  | zero => exact Ensures.unfinished (.spent ss)
  | succ depth ih => exact each_conducted ih ss

/-- A step whose condition does not hold calls no handler: it is passed over, or fails. -/
theorem Ran.passed_over {s : Step} {es : List Event} {o : Ending Unit} (h : wf.Ran s es o)
    (hc : Condition.evaluate s.condition wf.ctx.settings.data ≠ .ok true) :
    ∀ e ∈ es, (∃ signal, e = .recovery signal) ∨ ∃ text, e = .skipped text := by
  have paused {es : List Event} {o : Ending Unit} (hp : wf.Pauses es o) :
      ∀ e ∈ es, (∃ signal, e = .recovery signal) ∨ ∃ text, e = .skipped text := by
    obtain ⟨n, w, rfl, -⟩ := hp
    exact fun e he => .inl (Flow.ofRecovery_emits _ n w e he)
  cases h with
  | spent => simp
  | unreached hp | undecided hp | unshown hp => exact paused hp
  | skipped hj =>
    exact List.forall_mem_append.mpr ⟨paused hj.paused, List.forall_mem_singleton.mpr (.inr ⟨_, rfl⟩)⟩
  | through hj | recovered hj | replayed hj => exact absurd hj.decided hc

end Workflow

/-! ## Installations -/

/-- A signal of an installation that is ended early: a warning, or that nothing is done any more. -/
def Signal.Parts : Signal → Prop
  | .logged line => line.level = .warning
  | .notified notice => notice = .idle
  | _ => False

theorem Workflow.endEvents_parts (c : Fault) :
    ∀ s ∈ (endEvents c).filterMap Event.signal?, s.Parts := by
  simp [endEvents, Event.signal?, Signal.Parts]

namespace Installer

variable {i : Installer σ} {index : Value} {device : Device} {os : OperatingSystem}
  {settings : Settings} {n : Nat} {w w₁ w₂ : Hosted σ} {asked configured : List Signal}

theorem stopped_emits (i : Installer σ) (cause : Fault) : (i.stopped cause).Emits Signal.Parts := by
  have stopping (message : String) : (i.stop message).Emits Signal.Parts := by
    refine Emits.bind (Emits.emit rfl) fun _ => Emits.bind ?_ fun _ => Ensures.pure (by simp)
    exact Emits.bind (Emits.emit rfl) fun _ => Emits.world _
  have raising : (Run.raise cause : Job (Hosted σ) Bool).Emits Signal.Parts :=
    Ensures.raise (by simp)
  unfold stopped
  split
  · exact stopping _
  · exact stopping _
  · refine Emits.bind (Emits.world _) fun s => ?_
    split
    · exact stopping _
    · exact raising
  · exact raising

/-- What an installation leaves, and what it says in the end if it is ended early. -/
theorem carryOut_events (i : Installer σ) (device : Device) (os : OperatingSystem) (n : Nat)
    (w : Hosted σ) :
    ∃ closing, (i.carryOut device os n w).events =
        firstLine device os :: ((i.conduct device os n w.begun).events ++ closing) ∧
      (∀ s ∈ closing, s.Parts) ∧
      ∀ b, (i.conduct device os n w.begun).ending = .returned b → closing = [] := by
  rw [carryOut_apply, rescue_eq_thereafter]
  unfold thereafter
  dsimp only
  refine ⟨_, rfl, ?_, fun b hb => by rw [hb]; rfl⟩
  cases (i.conduct device os n w.begun).ending with
  | raised e => exact i.stopped_emits e n _
  | _ => exact fun s hs => absurd hs List.not_mem_nil

/-- The settings of an installation that gets as far as its steps are frozen. For every key they say
what the user decided about it, else what was set in the session, else what the last option for it
with a value says; and they decide, for as long as the installation lasts, which steps carry out
their actions. Whatever else the installation leaves comes before its steps, or is said of it when it
is ended early. -/
theorem install_settles (hidle : w.session.active = false)
    (hselects : w.session.Selects index device os)
    (hasked : (i.askPrerequisites device os >>= fun _ => i.askTerms os) n w.begun =
      ⟨.returned (), asked, w₁⟩)
    (hconfigured : i.configure os n w₁ = ⟨.returned settings, configured, w₂⟩) :
    (∃ options decided, os.options = .ok options ∧
      i.Decides options (presetEntries options w₁.session) n w₁ decided ∧
      ∀ k, k.isKey → settings.data.get? k = ((decided.last? k).or (w₁.session.options.last? k)).or
        ((OperatingSystem.defaultEntries options).last? k)) ∧
    (settings.frozen = true ∧ ∀ key value updates,
      settings.set key value = .error (Settings.refusal key) ∧
      settings.update ((key, value) :: updates) = .error (Settings.refusal key)) ∧
    let steps := os.steps ++ [endStep]
    let ran := (i.workflow device os settings).runSteps steps n w₂
    (i.workflow device os settings).Conducted steps ran.events ran.ending ∧
    ∃ closing, (i.install index n w).events = firstLine device os ::
        (asked ++ (configured ++ (ran.events.filterMap Event.signal? ++ closing))) ∧
      (∀ s ∈ closing, s.Parts) ∧ (ran.ending = .returned () → closing = []) := by
  obtain ⟨options, decided, hoptions, hdecided, rfl⟩ := configure_returned hconfigured
  refine ⟨⟨options, decided, hoptions, hdecided, fun k hk => get?_preset_putAll _ _ _ hk⟩,
    ⟨rfl, fun key value updates => ⟨Settings.set_frozen rfl key value,
      Settings.update_frozen rfl key value updates⟩⟩, Workflow.runSteps_conducted _ n w₂, ?_⟩
  obtain ⟨said, hsaid, hend, hdone⟩ := (i.workflow device os _).settle_events
    ((i.workflow device os _).runSteps (os.steps ++ [endStep])) n w₂
  have hparts : ∀ s ∈ said.filterMap Event.signal?, s.Parts := by
    obtain rfl | ⟨c, rfl⟩ := hend
    · simp
    · exact Workflow.endEvents_parts c
  obtain ⟨closing, hevents, hclosing, hreturned⟩ := i.carryOut_events device os n w
  have hconduct := conduct_apply hasked hconfigured
  refine ⟨said.filterMap Event.signal? ++ closing, ?_, List.forall_mem_append.mpr ⟨hparts, hclosing⟩,
    fun hended => ?_⟩
  · rw [install_eq_carryOut hidle hselects, hevents, hconduct]
    show _ :: (asked ++ (configured ++ ((i.workflow device os _).settle _ n w₂).events.filterMap
      Event.signal?) ++ closing) = _
    rw [hsaid]
    simp only [List.filterMap_append, List.append_assoc]
  · obtain ⟨rfl, hreturns⟩ := hdone hended
    rw [hreturned true (by rw [hconduct]; exact hreturns)]
    rfl

/-- The user decides about an option that was set in the session, and that has a value of its own. A
step whose condition wants that value is left out. -/
theorem decided_install_settles :
    let wipe : Value := .ofFields [("var", .str "wipe"), ("value", .bool true)]
    let reconnect : Step := {
      actions := [Recovery.reconnectAction], condition := .ofFields [("var", .str "wipe")] }
    let os : OperatingSystem := ⟨[(.str "name", .str "Ubuntu Touch"),
      (.str "options", .list [wipe])], [reconnect]⟩
    let device : Device := ⟨[], [os], { actions := [] }⟩
    let i : Installer Unit := {
      table := Builtin.table
      host := .answering { value := .ofFields [("wipe", .bool false)] }
      cacheRoot := default }
    let w : Hosted Unit :=
      ⟨{ config := some device, options := [(.str "wipe", .bool true)] }, ()⟩
    let settings : Settings := ⟨[(.str "wipe", .bool false)], true⟩
    w.session.active = false ∧ w.session.Selects (.int 0) device os ∧
      (i.askPrerequisites device os >>= fun _ => i.askTerms os) 2 w.begun =
        ⟨.returned (), [], w.begun⟩ ∧
      i.configure os 2 w.begun =
        ⟨.returned settings, (i.configure os 2 w.begun).events, w.begun⟩ ∧
      settings.data.get? (.str "wipe") = some (.bool false) ∧
      (i.install (.int 0) 2 w).ending = .returned true ∧
      let ran := (i.workflow device os settings).runSteps [reconnect, endStep] 2 w.begun
      ran.ending = .returned () ∧
      (i.workflow device os settings).Conducted [reconnect, endStep] ran.events ran.ending := by
  intro wipe reconnect os device i w settings
  have hselects : w.session.Selects (.int 0) device os :=
    ⟨rfl, ⟨0, rfl, rfl⟩, "Installing Ubuntu Touch on your None (None)", by cbv⟩
  have hasked : (i.askPrerequisites device os >>= fun _ => i.askTerms os) 2 w.begun =
      ⟨.returned (), [], w.begun⟩ := by cbv
  have hconfigured : i.configure os 2 w.begun =
      ⟨.returned settings, (i.configure os 2 w.begun).events, w.begun⟩ := by cbv
  obtain ⟨⟨options, decided, hoptions, hdecided, hget⟩, -, hconducted, -⟩ :=
    install_settles rfl hselects hasked hconfigured
  refine ⟨rfl, hselects, hasked, hconfigured, ?_, by cbv, by cbv, hconducted⟩
  rw [hget _ (by decide)]
  have hsome : os.options = .ok [wipe] := by cbv
  cases hsome.symm.trans hoptions
  cases hdecided with
  | nothing hnone => cases hnone
  | answer _ hdecide _ hvalue =>
    cases hdecide
    cases hvalue
    cbv

/-- A step whose actions cannot be shown, since the keys of one of them have no order, carries none of
them out although its condition holds. -/
theorem unshown_install_raises :
    let reconnect : Value := .ofFields [("adb:reconnect", .mapping [(.str "serial", .str "a"),
      (.int 5, .int 2)])]
    let raw : Entries := [(.str "actions", .list [reconnect])]
    let s : Step := { actions := [.named "adb:reconnect" (.mapping [(.str "serial", .str "a"),
      (.int 5, .int 2)])], raw }
    let os : OperatingSystem := ⟨[(.str "name", .str "Ubuntu Touch")], [s]⟩
    let device : Device := ⟨[], [os], { actions := [] }⟩
    let i : Installer Unit := {
      table := Builtin.table, host := .answering {}, cacheRoot := default }
    let w : Hosted Unit := ⟨{ config := some device }, ()⟩
    let settings : Settings := ⟨[], true⟩
    Step.ofValue "steps[0]" (.mapping raw) = .ok s ∧ w.session.Selects (.int 0) device os ∧
      i.configure os 2 w.begun =
        ⟨.returned settings, (i.configure os 2 w.begun).events, w.begun⟩ ∧
      Condition.evaluate s.condition settings.data = .ok true ∧
      (i.workflow device os settings).run (os.steps ++ [endStep]) 2 w.begun =
        ⟨.raised .mistyped, [], w.begun⟩ ∧
      (i.install (.int 0) 2 w).ending = .raised .mistyped := by
  intro reconnect raw s os device i w settings
  refine ⟨by cbv, ⟨rfl, ⟨0, rfl, rfl⟩, "Installing Ubuntu Touch on your None (None)", by cbv⟩,
    by cbv, rfl, by cbv, by cbv⟩

end Installer

end Reflash
