import Reflash.Proofs.Configure
import Reflash.Proofs.Grouping
import Reflash.Proofs.Start
import Reflash.Proofs.Recovery

set_option autoImplicit false

/-! # When success is reported

The shell is told that the installation is complete by one action only. Steps that do not have it,
at whatever depth, do not tell (`runStepsTo_notDone`); the step that every installation ends with
has nothing else, and neither fails nor is run again once it has told. So what an installation
tells the shell agrees with what it returns (`Installer.install_reports`). -/

namespace Reflash

open Run

variable {ε σ α β : Type}

/-! ## Runs that do not say that they are done -/

/-- Whether an event tells the shell that the installation is complete. -/
def Event.isDone (e : Event) : Bool :=
  e.signal?.any Signal.isDone

/-- Nothing that the host does by itself tells the shell that the installation is complete. -/
def Host.NeverDone (host : Host σ) : Prop :=
  host.Keeps fun {_ : Type} (job : Job σ _) => job.Emits fun s => s.isDone = false

theorem Job.notDone_closed (host : Host σ) :
    Job.Closed host fun {_ : Type} (job : Job σ _) => job.Emits fun s => s.isDone = false :=
  Job.emits_closed fun _ h => h

namespace Step

/-- No action of the step, or of a step inside of it, ends an installation. -/
def NeverEnds (s : Step) : Prop :=
  ∀ inner, s.Contains inner → ∀ a ∈ inner.actions ++ inner.fallback, a.id.text ≠ "core:end"

/-- It is enough to look at the actions of the step and at the steps that they group. -/
theorem NeverEnds.of_groups {s : Step}
    (hactions : ∀ a ∈ s.actions ++ s.fallback, a.id.text ≠ "core:end")
    (hgroups : ∀ a ∈ s.actions ++ s.fallback, ∀ ss, a.Groups ss → ∀ inner ∈ ss, inner.NeverEnds) :
    s.NeverEnds := by
  intro inner hinner a ha
  rcases Relation.ReflTransGen.cases_head hinner with rfl | ⟨s', ⟨b, hb, ss, hss, hs'⟩, hrest⟩
  · exact hactions a ha
  · exact hgroups b hb ss hss s' hs' inner hrest a ha

/-- A step that has a single action, and none inside. -/
theorem NeverEnds.single {a : Action} (ha : a.id.text ≠ "core:end")
    (hnone : ∀ ss, a.Groups ss → ss = []) (raw : Entries) :
    NeverEnds { actions := [a], raw } := by
  refine .of_groups (fun b hb => ?_) fun b hb ss hss inner hinner => ?_
  · rw [List.append_nil, List.mem_singleton] at hb
    exact hb ▸ ha
  · rw [List.append_nil, List.mem_singleton] at hb
    subst hb
    rw [hnone ss hss] at hinner
    cases hinner

/-- What an action of the step returns does not end an installation either. -/
theorem NeverEnds.expands {s : Step} (h : s.NeverEnds) {a : Action}
    (ha : a ∈ s.actions ++ s.fallback) {ss : List Step} (hss : Builtin.Expands a ss) :
    ∀ inner ∈ ss, inner.NeverEnds := by
  intro inner hinner
  cases hss with
  | nothing => cases hinner
  | group hgroup =>
    exact fun s' hs' => h s' (Relation.ReflTransGen.head ⟨a, ha, ss, hgroup, hinner⟩ hs')
  | wait hid name action haction raw =>
    cases List.mem_singleton.mp hinner
    refine NeverEnds.single ?_ (fun ss hss => ?_) raw
    · have hall : ∀ action ∈ Builtin.waitAfter.map Prod.snd, action ≠ "core:end" := by decide
      exact hall action (Builtin.mem_waitAfter haction)
    · exact Builtin.eq_nil_of_waitFor? haction (.group hss)

end Step

namespace Flow

theorem ofRecovery_notDone {job : Job σ α} (h : job.Emits fun s => s.isDone = false) :
    (ofRecovery job).Emits fun e => e.isDone = false :=
  Emits.mapEvents h

theorem inPart_notDone {flow : Flow σ α} (part : Part)
    (h : flow.Emits fun e => e.isDone = false) :
    (inPart part flow).Emits fun e => e.isDone = false :=
  inPart_emits rfl h rfl

end Flow

namespace Builtin

theorem handler_notDone {ctx : Context σ} (hhost : ctx.host.NeverDone) {id : String}
    {handler : Handler σ} (h : table.handler? id = some handler) (hid : id ≠ "core:end")
    (payload : Value) : (handler payload ctx).Emits fun s => s.isDone = false := by
  refine handler_keeps (Job.notDone_closed _) hhost (fun tool => ?_) h payload fun h => absurd h hid
  exact (Composes.emits _).repeatFrom
    (fun _ => waitRound_keeps (Job.notDone_closed _) hhost tool) ()

end Builtin

/-! ## Steps -/

namespace Recovery

variable {rules : Rules σ} (hhost : rules.ctx.host.NeverDone)
include hhost

theorem sustains_notDone : Sustains rules fun es _ => ∀ e ∈ es, e.isDone = false where
  toComposes := .emits _
  logs level message := Emits.emit rfl
  asks prompt f step data := by
    have hask := (Job.notDone_closed _).ask hhost prompt (.ofFields data) (some f.id)
      (some step.raw)
      (some f.cause.text)
    have signals {es : List Signal} (h : ∀ s ∈ es, s.isDone = false) :
        ∀ e ∈ es.map Event.recovery, e.isDone = false := by
      simpa [Event.isDone, Event.signal?] using h
    refine ask_ensures hask (fun es d h => ?_) (fun es e h => ?_) fun es h => signals h
    · exact List.forall_mem_append.mpr ⟨signals h, by simp [Event.isDone, Event.signal?]⟩
    · exact List.forall_mem_append.mpr ⟨signals h, by simp [Event.isDone, Event.signal?]⟩
  declines message := by simp

end Recovery

namespace Flow

variable {ctx : Context σ} (hhost : ctx.host.NeverDone) {runSteps : List Step → Flow σ Unit}
include hhost

theorem callHandler_notDone {a : Action} (ha : a.id.text ≠ "core:end") {d : Dispatch}
    (hd : a.dispatch = .ok d) :
    (callHandler Builtin.table ctx d).Emits fun e => e.isDone = false := by
  have hid : d.id ≠ "core:end" := dispatch_id hd ▸ ha
  have signals {es : List Signal} (h : ∀ s ∈ es, s.isDone = false) :
      ∀ e ∈ .dispatched d.ns d.verb d.payload :: es.map Event.handler, e.isDone = false := by
    simpa [Event.isDone, Event.signal?] using ⟨rfl, h⟩
  refine callHandler_ensures (fun handler h => Builtin.handler_notDone hhost h hid d.payload)
    (fun _ => by simp) (fun es v ss h _ => signals h) (fun es v e h _ => signals h)
    (fun es e h => ?_) fun es h => signals h
  exact List.forall_mem_append.mpr ⟨signals h, by simp [Event.isDone, Event.signal?]⟩

theorem action_notDone {a : Action} (ha : a.id.text ≠ "core:end")
    (hsteps : ∀ ss, Builtin.Expands a ss → (runSteps ss).Emits fun e => e.isDone = false) :
    (action runSteps Builtin.table ctx a).Emits fun e => e.isDone = false := by
  unfold action
  split
  · next e _ =>
    obtain ⟨e', heq⟩ := refuse_eq_raise e
    exact heq ▸ Ensures.raise (by simp)
  next d hd =>
  have hcall := (callHandler_notDone hhost ha hd).rescue fun e =>
    (Ensures.raise (by simp) : (Run.raise (asFailureOf d.id e) : Flow σ (List Step)).Emits _)
  have hexpands := (Builtin.callHandler_expands hd ctx).rescue fun e =>
    (.raise (asFailureOf d.id e) : (Run.raise _ : Flow σ _).Yields (Builtin.Expands a))
  refine (Composes.emits _).bind_of (hcall.and hexpands) fun ss hss => ?_
  split
  · exact Ensures.pure (by simp)
  · exact inPart_notDone _ (hsteps ss hss)

theorem actions_notDone {s : Step} (hs : s.NeverEnds)
    (hsteps : ∀ ss : List Step, (∀ inner ∈ ss, inner.NeverEnds) →
      (runSteps ss).Emits fun e => e.isDone = false)
    {as : List Action} (has : as ⊆ s.actions ++ s.fallback) :
    (actions runSteps Builtin.table ctx as).Emits fun e => e.isDone = false :=
  .each fun a ha => action_notDone hhost (hs s .refl a (has ha)) fun ss hss =>
    hsteps ss (hs.expands (has ha) hss)

end Flow

namespace Workflow

section

variable {wf : Workflow σ} (htable : wf.table = Builtin.table) (hhost : wf.ctx.host.NeverDone)
  (hunlock : wf.ctx.device.unlockStep.NeverEnds) {runSteps : List Step → Flow σ Unit}
include htable hhost hunlock

theorem start_notDone (hsteps : ∀ ss : List Step, (∀ inner ∈ ss, inner.NeverEnds) →
      (runSteps ss).Emits fun e => e.isDone = false) {s : Step} (hs : s.NeverEnds)
    (a : StepAttempt) : (wf.start runSteps s a).Emits fun e => e.isDone = false := by
  have hP : Recovery.Sustains (wf.rules runSteps) fun es _ => ∀ e ∈ es, e.isDone = false :=
    Recovery.sustains_notDone hhost
  have hacts {s : Step} (hs : s.NeverEnds) {as : List Action} (has : as ⊆ s.actions ++ s.fallback) :
      ((wf.rules runSteps).actions as).Emits fun e => e.isDone = false := by
    change (Flow.actions runSteps wf.table wf.ctx as).Emits _
    rw [htable]
    exact Flow.actions_notDone hhost hs hsteps has
  have unlocking (f : ActionFailure) : (Recovery.unlock (wf.rules runSteps) f s).Emits
      fun e => e.isDone = false := by
    refine hP.unlock f s (Emits.emit rfl) (hP.runUnlock s (by simp) (hP.unlockRound s ?_ ?_))
      (Emits.emit rfl)
    · refine Recovery.recoverable_of_composes (.emits _) (Emits.mapEvents ?_)
      exact hacts hunlock (List.subset_append_left _ _)
    · exact fun _ _ => Flow.inPart_notDone _ (hacts hunlock (List.subset_append_right _ _))
  have reconnecting (f : ActionFailure) (count : Nat) :
      (Recovery.reconnect (wf.rules runSteps) f s count).Emits fun e => e.isDone = false := by
    have hreconnect : Step.NeverEnds { actions := [Recovery.reconnectAction] } :=
      .single (by decide)
        (fun ss hss => Builtin.Expands.eq_nil (.group hss) (by decide) (by decide)) _
    exact hP.reconnect f s count (Recovery.recoverable_of_composes (.emits _) (Flow.inPart_notDone _
      (hacts hreconnect (List.subset_append_left _ _))))
  have handling (f : ActionFailure) : (Recovery.handle (wf.rules runSteps) f s a).Emits
      fun e => e.isDone = false := by
    obtain ⟨course, a', hcourse, heq⟩ := Recovery.handle_course (wf.rules runSteps) f s a
    rw [heq]
    refine .bind (.emit rfl) fun _ => Emits.bind ?_ fun _ => Ensures.pure (by simp)
    exact hP.course hcourse (by simp)
      (Flow.inPart_notDone _ (hacts hs (List.subset_append_right _ _))) (unlocking _)
      (reconnecting _)
  refine (start_ensures (Flow.ofRecovery_notDone hhost.pause)
    (hacts hs (List.subset_append_left _ _)) handling).mono fun es o h => ?_
  have hstarted (text : String) : (Event.started text).isDone = false := rfl
  have hskipped (text : String) : (Event.skipped text).isDone = false := rfl
  have hreplayed (text : String) (count : Nat) : (Event.replayed text count).isDone = false := rfl
  cases h with
  | unreached hp | undecided hp | unshown hp => exact hp
  | skipped hj => simpa [or_imp, forall_and, hskipped] using hj.paused
  | through hj ha | broken hj ha =>
    simpa [or_imp, forall_and, hstarted] using ⟨hj.paused, ha⟩
  | unhandled hj ha hr | handled hj ha hr =>
    simpa [or_imp, forall_and, hstarted] using ⟨hj.paused, ha, hr⟩
  | replayed hj ha hr =>
    simpa [or_imp, forall_and, hstarted, hreplayed] using ⟨hj.paused, ha, hr⟩

theorem step_notDone (hsteps : ∀ ss : List Step, (∀ inner ∈ ss, inner.NeverEnds) →
      (runSteps ss).Emits fun e => e.isDone = false) {s : Step} (hs : s.NeverEnds) :
    (wf.step runSteps s).Emits fun e => e.isDone = false :=
  (Composes.emits _).repeatFrom
    (fun a => start_notDone htable hhost hunlock hsteps hs a) {}

/-- Steps that do not end an installation do not say that it is complete. -/
theorem runStepsTo_notDone (depth : Nat) {ss : List Step} (hss : ∀ s ∈ ss, s.NeverEnds) :
    (wf.runStepsTo depth ss).Emits fun e => e.isDone = false := by
  induction depth generalizing ss with
  | zero => exact Ensures.unfinished (by simp)
  | succ depth ih =>
    exact .each fun s hs =>
      step_notDone htable hhost hunlock (fun ss hss => ih hss) (hss s hs)

end

end Workflow

/-! ## The last step -/

/-- The notice that a signal shows. -/
def Signal.notice? : Signal → Option Notice
  | .notified notice => some notice
  | _ => none

/-- The notices among signals. -/
def notices (es : List Signal) : List Notice :=
  es.filterMap Signal.notice?

@[simp] theorem notices_append (es es' : List Signal) :
    notices (es ++ es') = notices es ++ notices es' :=
  List.filterMap_append

theorem notices_notDone {es : List Signal} (h : ∀ s ∈ es, s.isDone = false) :
    ∀ notice ∈ notices es, notice.kind ≠ .done := by
  intro notice hmem
  obtain ⟨s, hs, hnotice⟩ := List.mem_filterMap.mp hmem
  have hdone := h s hs
  cases s with
  | notified notice' =>
    cases hnotice
    simpa [Signal.isDone] using hdone
  | _ => cases hnotice

/-- The notices of the end of an installation. -/
def successNotices (os : OperatingSystem) : List Notice :=
  [.done, .status (os.name ++ " successfully installed!") (some false),
    ⟨.under, [os.successMessage.orElse (.str Builtin.defaultSuccess)]⟩]

/-- The events of the action that ends an installation. -/
def finishEvents (os : OperatingSystem) : List Event :=
  .dispatched "core" "end" .null ::
    ((successNotices os).map Signal.notified).map Event.handler

namespace Builtin

theorem dispatch_finish :
    (Action.named "core:end").dispatch = .ok ⟨"core:end", "core", "end", .null⟩ := by
  cbv

theorem handler?_finish : table.handler? "core:end" = some (finish : Handler σ) := by
  cbv

/-- What the end of an installation does if the system has a name to be told by. -/
theorem finish_eq {ctx : Context σ} (hname : ctx.system.shownName = .ok ctx.system.name)
    (payload : Value) :
    finish payload ctx = (do
      Run.each ctx.host.tell (successNotices ctx.system)
      return .null) := by
  unfold finish
  rw [hname]
  rfl

/-- The action that ends an installation tells so, and cannot fail if the system has a name to be
told by. -/
theorem finish_ensures (runSteps : List Step → Flow σ Unit) {ctx : Context σ}
    (hname : ctx.system.shownName = .ok ctx.system.name) :
    (Flow.actions runSteps table ctx [.named "core:end"]).Ensures fun es o =>
      es = finishEvents ctx.system ∧ o = .returned () := by
  have hhandler : ActionTable.lookup table "core:end" = .ok (finish : Handler σ) :=
    ActionTable.lookup_eq_ok.mpr handler?_finish
  rw [Flow.actions_single, Flow.action_eq dispatch_finish]
  unfold Flow.callHandler
  rw [hhandler]
  rw [Run.ofFallible_ok_bind, finish_eq hname]
  exact fun _ _ => ⟨rfl, rfl⟩

end Builtin

theorem Installer.endStep_describe :
    endStep.describe = .ok "\x7b\"actions\": [\x7b\"core:end\": null\x7d]\x7d" := by
  cbv

/-- What steps of an installation tell agrees with how they end: they are through with the events of
its end, and before, or otherwise, nothing says that it is complete. -/
def Tells (os : OperatingSystem) (es : List Event) : Ending Unit → Prop
  | .returned _ => ∃ before, es = before ++ finishEvents os ∧ ∀ e ∈ before, e.isDone = false
  | .raised _ => ∀ e ∈ es, e.isDone = false
  | .unfinished => True

theorem Tells.prepend {os : OperatingSystem} {es es' : List Event} {o : Ending Unit}
    (h : ∀ e ∈ es, e.isDone = false) (h' : Tells os es' o) : Tells os (es ++ es') o := by
  cases o with
  | returned _ =>
    obtain ⟨before, rfl, hbefore⟩ := h'
    exact ⟨es ++ before, by rw [List.append_assoc], List.forall_mem_append.mpr ⟨h, hbefore⟩⟩
  | raised _ => exact List.forall_mem_append.mpr ⟨h, h'⟩
  | unfinished => trivial

namespace Workflow

variable {wf : Workflow σ} (htable : wf.table = Builtin.table) (hhost : wf.ctx.host.NeverDone)
  (hname : wf.ctx.system.shownName = .ok wf.ctx.system.name)
include htable hhost hname

/-- The last step of an installation is not started again. -/
theorem start_endStep (runSteps : List Step → Flow σ Unit) (a : StepAttempt) :
    (wf.start runSteps Installer.endStep a).Ensures fun es o =>
      (∀ a', o ≠ .returned (.inl a')) ∧ Tells wf.ctx.system es o.forget := by
  have hfinish := Builtin.finish_ensures runSteps hname
  rw [← htable] at hfinish
  have never (f : ActionFailure) :
      (Recovery.handle (wf.rules runSteps) f Installer.endStep a).Ensures fun _ _ => True :=
    fun _ _ => trivial
  refine (start_ensures (Flow.ofRecovery_notDone hhost.pause) hfinish never).mono fun es o h => ?_
  cases h with
  | unreached hp ho =>
    refine ⟨fun a' h => ho (congrArg Ending.forget h), ?_⟩
    cases o with
    | returned => exact absurd rfl ho
    | raised => exact hp
    | unfinished => trivial
  | undecided _ hc => cases hc
  | unshown _ hs => cases Installer.endStep_describe.symm.trans hs
  | skipped hj => cases hj.decided
  | @through pre _ text hj ha =>
    refine ⟨fun a' h => (by cases h), pre ++ [.started text], ?_, ?_⟩
    · rw [ha.1, List.append_assoc, List.singleton_append]
    · exact List.forall_mem_append.mpr ⟨hj.paused, List.forall_mem_singleton.mpr rfl⟩
  | broken _ ha ho => exact absurd ha.2 ho
  | unhandled _ ha | handled _ ha | replayed _ ha => cases ha.2

theorem step_endStep (runSteps : List Step → Flow σ Unit) :
    (wf.step runSteps Installer.endStep).Ensures (Tells wf.ctx.system) := by
  refine Ensures.repeatFrom (Q := fun _ es o => Tells wf.ctx.system es o) (fun _ => trivial)
    (fun a => (start_endStep htable hhost hname runSteps a).mono fun es o h => ?_) {}
  rcases o with (a' | _) | _ | _
  · exact absurd rfl (h.1 a')
  all_goals exact h.2

/-- The steps of an installation with the last one after them. -/
theorem runSteps_tells {steps : List Step} (hsteps : ∀ s ∈ steps, s.NeverEnds)
    (hunlock : wf.ctx.device.unlockStep.NeverEnds) :
    (wf.runSteps (steps ++ [Installer.endStep])).Ensures (Tells wf.ctx.system) := by
  refine Ensures.withBudget fun depth => ?_
  cases depth with
  | zero => exact Ensures.unfinished trivial
  | succ depth =>
    have hbefore := runStepsTo_notDone htable hhost hunlock (depth + 1) hsteps
    change (Run.each _ (steps ++ [Installer.endStep])).Ensures _
    rw [Run.each_append]
    refine Ensures.bind hbefore (fun es _ h => ?_) (fun es e h => h) fun es _ => trivial
    refine Ensures.bind (step_endStep htable hhost hname _) (fun es' _ h' => ?_) (fun es' e h' => ?_)
      fun es' _ => trivial
    · exact Ensures.pure (by rw [List.append_nil]; exact h'.prepend h)
    · exact h'.prepend h

end Workflow

/-! ## Installations -/

/-- What an installation tells agrees with how it ends. With success come the notices of the end, as
the last ones, and nothing before them says that it is complete. Without success nothing does, and an
installation that was ended on purpose leaves the idle notice as the last one. -/
def Agrees (os : OperatingSystem) (es : List Signal) : Ending Bool → Prop
  | .returned true => ∃ before, notices es = before ++ successNotices os ∧
      ∀ notice ∈ before, notice.kind ≠ .done
  | .returned false => (∀ s ∈ es, s.isDone = false) ∧ (notices es).getLast? = some .idle
  | .raised _ => ∀ s ∈ es, s.isDone = false
  | .unfinished => True

theorem Agrees.prepend {os : OperatingSystem} {es es' : List Signal} {o : Ending Bool}
    (h : ∀ s ∈ es, s.isDone = false) (h' : Agrees os es' o) : Agrees os (es ++ es') o := by
  rcases o with (_ | _) | _ | _
  · refine ⟨List.forall_mem_append.mpr ⟨h, h'.1⟩, ?_⟩
    rw [notices_append, List.getLast?_append, h'.2, Option.some_or]
  · obtain ⟨before, heq, hbefore⟩ := h'
    refine ⟨notices es ++ before, ?_, List.forall_mem_append.mpr ⟨notices_notDone h, hbefore⟩⟩
    rw [notices_append, heq, List.append_assoc]
  · exact List.forall_mem_append.mpr ⟨h, h'⟩
  · trivial

theorem signals_notDone {es : List Event} (h : ∀ e ∈ es, e.isDone = false) :
    ∀ s ∈ es.filterMap Event.signal?, s.isDone = false := by
  intro s hs
  obtain ⟨e, he, hsignal⟩ := List.mem_filterMap.mp hs
  simpa [Event.isDone, hsignal] using h e he

theorem Workflow.run_agrees {wf : Workflow σ} (htable : wf.table = Builtin.table)
    (hhost : wf.ctx.host.NeverDone) (hname : wf.ctx.system.shownName = .ok wf.ctx.system.name)
    {steps : List Step} (hsteps : ∀ s ∈ steps, s.NeverEnds)
    (hunlock : wf.ctx.device.unlockStep.NeverEnds) :
    (wf.run (steps ++ [Installer.endStep])).toJob.Ensures (Agrees wf.ctx.system) := by
  have hrun : (wf.run (steps ++ [Installer.endStep])).Ensures fun es o =>
      Agrees wf.ctx.system (es.filterMap Event.signal?) o := by
    refine settle_ensures (runSteps_tells htable hhost hname hsteps hunlock) (fun es h => ?_)
      (fun es c _ h => ?_) (fun es c _ h => signals_notDone h) fun es _ => trivial
    · obtain ⟨before, rfl, hbefore⟩ := h
      refine ⟨notices (before.filterMap Event.signal?), ?_,
        notices_notDone (signals_notDone hbefore)⟩
      rw [List.filterMap_append, notices_append]
      rfl
    · have hended : Agrees wf.ctx.system ((endEvents c).filterMap Event.signal?)
          (.returned false) := by
        refine ⟨?_, rfl⟩
        simp [endEvents, Event.signal?, Signal.isDone, Notice.idle, Notice.working]
      rw [List.filterMap_append]
      exact hended.prepend (signals_notDone h)
  exact fun n w => hrun n w

namespace Installer

variable {i : Installer σ} (htable : i.table = Builtin.table) (hhost : i.host.NeverDone)

section

include hhost

theorem askPrerequisites_notDone (device : Device) (os : OperatingSystem) :
    (i.askPrerequisites device os).Emits fun s => s.isDone = false := by
  have hQ := Job.notDone_closed i.host
  refine hQ.bind (hQ.ofFallible _) fun prerequisites => ?_
  split
  · exact hQ.pure _
  · refine hQ.bind (hQ.ofFallible _) fun actions => ?_
    refine hQ.bind (hQ.ask hhost _ _ _ _ _) fun decision => ?_
    split
    · exact hQ.raise _
    · exact hQ.pure _

theorem askTerms_notDone (os : OperatingSystem) :
    (i.askTerms os).Emits fun s => s.isDone = false := by
  have hQ := Job.notDone_closed i.host
  unfold askTerms
  split
  · exact hQ.pure _
  · refine hQ.bind (hQ.ask hhost _ _ _ _ _) fun decision => ?_
    split
    · exact hQ.raise _
    · exact hQ.pure _

theorem askOptions_notDone (options : List Value) (settings : Settings) :
    (i.askOptions options settings).Emits fun s => s.isDone = false := by
  have hQ := Job.notDone_closed i.host
  refine hQ.bind (hQ.log _ _ _) fun _ => hQ.bind (hQ.ask hhost _ _ _ _ _) fun decision => ?_
  refine hQ.raiseIf ?_
  split
  · exact hQ.ofFallible _
  · exact hQ.raise _

theorem configure_notDone (os : OperatingSystem) :
    (i.configure os).Emits fun s => s.isDone = false := by
  have hQ := Job.notDone_closed i.host
  refine hQ.bind (hQ.ofFallible _) fun _ => hQ.bind (hQ.ofFallible _) fun _ => ?_
  refine hQ.bind (Emits.world _) fun _ => hQ.bind (hQ.ofFallible _) fun _ => ?_
  refine hQ.bind (hQ.ofFallible _) fun options => ?_
  dsimp only
  split
  · exact hQ.bind (hQ.log _ _ _) fun _ => hQ.bind (hQ.pure _) fun _ =>
      hQ.bind (hQ.logText _ _ _) fun _ => hQ.pure _
  · exact hQ.bind (askOptions_notDone hhost _ _) fun _ => hQ.bind (hQ.logText _ _ _) fun _ =>
      hQ.pure _

omit hhost in
theorem stop_agrees (os : OperatingSystem) (message : String) :
    (i.stop message).Ensures (Agrees os) := by
  intro n w
  change Agrees os [.logged ⟨.warning, "installer", message⟩, .notified .idle] (.returned false)
  exact ⟨by simp [Signal.isDone, Notice.idle, Notice.working], rfl⟩

omit hhost in
/-- Whatever ended an installation before it was complete, it does not say that it is. -/
theorem stopped_agrees (os : OperatingSystem) (cause : Fault) :
    (i.stopped cause).Ensures (Agrees os) := by
  have raising : (Run.raise cause : Job (Hosted σ) Bool).Ensures (Agrees os) :=
    Ensures.raise (by simp [Agrees])
  unfold stopped
  split
  · exact stop_agrees os _
  · exact stop_agrees os _
  · have hcurrent : (Session.current : Job (Hosted σ) Session).Ensures fun es o =>
        es = [] ∧ ∃ s, o = .returned s := fun _ w => ⟨rfl, w.session, rfl⟩
    refine Ensures.bind hcurrent (fun es s h => ?_) (fun es e h => ?_) fun es h => ?_
    · rw [h.1]
      split
      · exact stop_agrees os _
      · exact raising
    · obtain ⟨-, s, h⟩ := h
      cases h
    · obtain ⟨-, s, h⟩ := h
      cases h
  · exact raising

end

section

include htable hhost

theorem conduct_agrees {device : Device} {os : OperatingSystem}
    (hname : os.shownName = .ok os.name) (hsteps : ∀ s ∈ os.steps, s.NeverEnds)
    (hunlock : device.unlockStep.NeverEnds) :
    (i.conduct device os).Ensures (Agrees os) := by
  have after {γ : Type} {job : Job (Hosted σ) γ} {next : γ → Job (Hosted σ) Bool}
      (hjob : job.Emits fun s => s.isDone = false) (hnext : ∀ c, (next c).Ensures (Agrees os)) :
      (job >>= next).Ensures (Agrees os) :=
    Ensures.bind hjob (fun es c h n w => (hnext c n w).prepend h) (fun es e h => h)
      fun es _ => trivial
  refine after (askPrerequisites_notDone hhost device os) fun _ => ?_
  refine after (askTerms_notDone hhost os) fun _ => ?_
  refine after (configure_notDone hhost os) fun settings => ?_
  have hworkflow : (i.workflow device os settings).ctx.host.NeverDone := hhost
  exact Workflow.run_agrees htable hworkflow hname hsteps hunlock

theorem carryOut_agrees {device : Device} {os : OperatingSystem}
    (hname : os.shownName = .ok os.name) (hsteps : ∀ s ∈ os.steps, s.NeverEnds)
    (hunlock : device.unlockStep.NeverEnds) :
    (i.carryOut device os).Ensures (Agrees os) := by
  have hconducted : ((i.conduct device os).rescue i.stopped).Ensures (Agrees os) :=
    Ensures.rescue (conduct_agrees htable hhost hname hsteps hunlock) (fun es b h => h)
      (fun es e h n w => (stopped_agrees os e n w).prepend h) fun es h => h
  -- What is attempted is told again when the session is no longer active.
  have hresult : ((i.conduct device os).rescue i.stopped).attempt.Ensures fun es o =>
      (∀ result, o = .returned result → (Run.ofFallible result : Job (Hosted σ) Bool).Ensures
        fun es' o' => Agrees os (es ++ es') o') ∧ ∀ e, o ≠ .raised e := by
    refine Ensures.attempt hconducted (fun es b h => ⟨fun result hb => ?_, fun e he => by cases he⟩)
      (fun es e h => ⟨fun result he => ?_, fun e he => by cases he⟩)
      fun es _ => ⟨fun result hr => (by cases hr), fun e he => by cases he⟩
    · cases hb
      exact Ensures.pure (by rwa [List.append_nil])
    · cases he
      exact Ensures.raise (by rwa [List.append_nil])
  have quiet (line : LogLine) : ∀ s ∈ [Signal.logged line], s.isDone = false :=
    List.forall_mem_singleton.mpr rfl
  refine Ensures.emit_bind (Ensures.mono ?_ fun es o h => Agrees.prepend (quiet _) h)
  refine Ensures.bind (P := fun es o => es = [] ∧ o = .returned ()) (fun _ _ => ⟨rfl, rfl⟩)
    (fun es _ h => ?_) (fun es e h => by cases h.2) fun es h => by cases h.2
  rw [h.1]
  refine Ensures.bind hresult (fun es result h => ?_) (fun es e h => absurd rfl (h.2 e))
    fun es _ => trivial
  exact fun n w => h.1 result rfl n _

end

/-- How often signals say that an installation is complete. -/
def completions (es : List Signal) : Nat :=
  (notices es).countP fun notice => notice.kind == .done

theorem completions_eq_zero {es : List Signal} (h : ∀ notice ∈ notices es, notice.kind ≠ .done) :
    completions es = 0 :=
  List.countP_eq_zero.mpr fun notice hmem => by simpa using h notice hmem

/-- With the built-in handlers, and steps that do not end an installation by themselves, an
installation says that it is complete exactly if it returns so: once, in the first of its last three
notices. If it returns that it is not, the idle notice is the last one. -/
theorem install_reports {i : Installer σ} (htable : i.table = Builtin.table)
    (hhost : i.host.NeverDone) {index : Value} {w : Hosted σ}
    (hsteps : ∀ device os, w.session.Selects index device os →
      (∀ s ∈ os.steps, s.NeverEnds) ∧ device.unlockStep.NeverEnds) (n : Nat) :
    ((i.install index n w).ending = .returned true →
      ∃ device os, w.session.Selects index device os ∧
        completions (i.install index n w).events = 1 ∧
        successNotices os <:+ notices (i.install index n w).events) ∧
    ((i.install index n w).ending = .returned false →
      completions (i.install index n w).events = 0 ∧
        (notices (i.install index n w).events).getLast? = some .idle) ∧
    ∀ e, (i.install index n w).ending = .raised e →
      completions (i.install index n w).events = 0 := by
  rcases i.install_cases index n w with ⟨e, heq⟩ | ⟨device, os, hselects, heq⟩
  · rw [heq]
    exact ⟨fun h => (by cases h), fun h => (by cases h), fun _ _ => rfl⟩
  obtain ⟨hos, hunlock⟩ := hsteps device os hselects
  obtain ⟨line, hline⟩ := hselects.2.2
  have hagrees := carryOut_agrees htable hhost (heading_eq_ok hline).1 hos hunlock n w
  rw [heq]
  refine ⟨fun h => ?_, fun h => ?_, fun e h => ?_⟩
  · rw [h] at hagrees
    obtain ⟨before, hnotices, hbefore⟩ := hagrees
    refine ⟨device, os, hselects, ?_, ?_⟩
    · have hnone : (before.countP fun notice => notice.kind == .done) = 0 :=
        List.countP_eq_zero.mpr fun notice hmem => by simpa using hbefore notice hmem
      have hone : ((successNotices os).countP fun notice => notice.kind == .done) = 1 := rfl
      rw [completions, hnotices, List.countP_append, hnone, hone]
    · rw [hnotices]
      exact List.suffix_append before _
  · rw [h] at hagrees
    exact ⟨completions_eq_zero (notices_notDone hagrees.1), hagrees.2⟩
  · rw [h] at hagrees
    exact completions_eq_zero (notices_notDone hagrees)

/-- An installation of two steps, one inside of the other, that ends with success. -/
theorem grouped_install_reports :
    let reconnect : Value := .ofFields [("actions", .list [Recovery.reconnectAction.toValue])]
    let group : Step := { actions := [.named "core:group" (.list [reconnect])] }
    let os : OperatingSystem := ⟨[(.str "name", .str "Ubuntu Touch")], [group]⟩
    let device : Device := ⟨[], [os], { actions := [] }⟩
    let i : Installer Unit := {
      table := Builtin.table, host := .answering {}, cacheRoot := default }
    let w : Hosted Unit := ⟨{ config := some device }, ()⟩
    i.host.NeverDone ∧ (∀ device' os', w.session.Selects (.int 0) device' os' →
      (∀ s ∈ os'.steps, s.NeverEnds) ∧ device'.unlockStep.NeverEnds) ∧
      (i.install (.int 0) 3 w).ending = .returned true ∧
      completions (i.install (.int 0) 3 w).events = 1 := by
  intro reconnect group os device i w
  have hhost : i.host.NeverDone := Host.answering_keeps {} (Job.notDone_closed _)
  have hgroup : group.NeverEnds := by
    refine .of_groups (fun a ha => ?_) fun a ha ss hss inner hinner => ?_
    · cases List.mem_singleton.mp ha
      decide
    · cases List.mem_singleton.mp ha
      obtain ⟨-, items, path, hitems, hread⟩ := hss
      cases hitems
      have hlist : Step.listOf path (.list [reconnect]) = .ok
          [{ actions := [Recovery.reconnectAction],
             raw := [(.str "actions", .list [Recovery.reconnectAction.toValue])] }] := by cbv
      rw [hlist] at hread
      cases hread
      cases List.mem_singleton.mp hinner
      exact .single (by decide)
        (fun ss hss => Builtin.Expands.eq_nil (.group hss) (by decide) (by decide)) _
  have hsteps (device' : Device) (os' : OperatingSystem)
      (h : w.session.Selects (.int 0) device' os') :
      (∀ s ∈ os'.steps, s.NeverEnds) ∧ device'.unlockStep.NeverEnds := by
    obtain ⟨hconfig, ⟨number, hnumber, hos⟩, -⟩ := h
    cases hconfig
    cases hnumber
    cases hos
    refine ⟨fun s hs => ?_, .of_groups (fun a ha => by cases ha) fun a ha => by cases ha⟩
    cases List.mem_singleton.mp hs
    exact hgroup
  have hended : (i.install (.int 0) 3 w).ending = .returned true := by cbv
  obtain ⟨-, -, -, hcount, -⟩ := (install_reports rfl hhost hsteps 3).1 hended
  exact ⟨hhost, hsteps, hended, hcount⟩

end Installer

end Reflash
