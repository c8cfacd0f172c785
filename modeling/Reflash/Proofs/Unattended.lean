import Reflash.Proofs.Concludes
import Reflash.Proofs.Start

set_option autoImplicit false

/-! # No run without end

A run goes on for ever only if somebody goes on answering. Every round of its three loops is paid for:
looking for a device once more and unlocking once more by an answer that lets the run go on, another
start of a step by such an answer or by one of a limited number of reconnections. The steps inside
of a step are smaller than it is, and the unlock flow, which is not, is entered only after such an
answer.

So a run whose questions are answered so only finitely often comes to its end
(`run_ends_unattended`). -/

namespace Reflash

open Run

variable {σ α β : Type}

/-! ## Answers that let a run go on -/

/-- The line of the record about an answer. -/
def answerLine (choice : Choice) (prompt : Prompt) : LogLine :=
  ⟨.debug, "events", "User decided " ++ choice.text ++ " on " ++ prompt.text⟩

/-- Whether a signal is the line of the record about an answer that lets the run go on. -/
def Signal.resumes : Signal → Bool
  | .logged line =>
    [Choice.continue, .retry].any fun choice =>
      Prompt.all.any fun prompt => line == answerLine choice prompt
  | _ => false

/-- Whether an event is an answer that lets the run go on: one that recovery got, or one that a
handler got, which leaves its line in the record. -/
def Event.resumes : Event → Bool
  | answered _ d => d.resumes
  | handler s => s.resumes
  | within _ e => e.resumes
  | _ => false

theorem Event.resumes_of_counts {e : Event} (h : e.counts .resumption) : e.resumes := by
  cases e with
  | answered prompt d => exact h
  | _ => cases h

/-- How many questions were answered so that the run can go on. -/
def resumptions (es : List Event) : Nat :=
  es.countP Event.resumes

theorem count_resumption_le (es : List Event) : count .resumption es ≤ resumptions es :=
  List.countP_mono_left fun _ _ => Event.resumes_of_counts

theorem resumes_answerLine {d : Decision} (hd : d.resumes) (prompt : Prompt) :
    (Signal.logged (answerLine d.choice prompt)).resumes := by
  have hchoice : d.choice ∈ [Choice.continue, .retry] := by
    simpa [Decision.resumes] using hd
  have hprompt : prompt ∈ Prompt.all := by cases prompt <;> decide
  refine List.any_eq_true.mpr ⟨_, hchoice, List.any_eq_true.mpr ⟨_, hprompt, ?_⟩⟩
  exact beq_self_eq_true _

/-- A question that is answered so that the run can go on says so. -/
theorem Host.ask_resumes (host : Host σ) (prompt : Prompt) (data : Value) (action : Option String)
    (step : Option Entries) (cause : Option String) :
    (host.ask prompt data action step cause).Ensures fun es o =>
      ∀ d, o = .returned d → d.resumes → 1 ≤ es.countP Signal.resumes := by
  have never {r : Job σ Decision} : r.Ensures fun _ _ => True := fun _ _ => trivial
  refine Ensures.ofFallible_bind (fun entries _ => ?_) fun e _ d h => by cases h
  refine Ensures.emit_bind (Ensures.emit_bind (Ensures.bind never (fun es d _ => ?_)
    (fun es e _ d h => by cases h) fun es _ d h => by cases h))
  refine Ensures.emit_bind (Ensures.pure fun d' hd' hd => ?_)
  cases hd'
  refine List.countP_pos_iff.mpr ⟨.logged (answerLine d.choice prompt), ?_, ?_⟩
  · simp [answerLine]
  · exact resumes_answerLine hd prompt

namespace Builtin

theorem waitRound_resumes (ctx : Context σ) (tool : DeviceTool) :
    (waitRound ctx tool).Ensures fun es o =>
      o = .returned (.inl ()) → 1 ≤ es.countP Signal.resumes := by
  have never {γ : Type} {r : Job σ γ} : r.Ensures fun _ _ => True := fun _ _ => trivial
  refine Ensures.emit_bind (Ensures.bind never (fun es answer _ => ?_) (fun es e _ h => by cases h)
    fun es _ h => by cases h)
  split
  · exact Ensures.pure fun h => by cases h
  · refine Ensures.bind (Host.ask_resumes ctx.host _ _ _ _ _) (fun es' d hd => ?_)
      (fun es e _ h => by cases h) fun es _ h => by cases h
    split
    · next hresumes =>
      refine Ensures.pure fun _ => ?_
      have := hd d rfl hresumes
      simp only [List.append_nil, List.countP_cons, List.countP_append]
      omega
    · exact Ensures.raise fun h => by cases h
  · split
    · exact Ensures.raise fun h => by cases h
    · exact Ensures.bind never (fun es _ _ => Ensures.pure fun h => by cases h)
        (fun es e _ h => by cases h) fun es _ h => by cases h

variable {ctx : Context σ} (hhost : ctx.host.Total)
include hhost

theorem wait_concludes (payload : Value) (tool : DeviceTool) (k : Nat) :
    (wait tool payload ctx).Concludes Signal.resumes k := by
  have hround := (waitRound_keeps Job.total_closed hhost tool).concludes Signal.resumes k
  refine .bind ((Job.total_closed.announce _ _ _).concludes _ _) fun _ => ?_
  refine .repeatFrom (fun _ => 0) (fun _ => hround) (fun _ => ?_) ()
  exact (waitRound_resumes ctx tool).mono fun es o h _ ho => by
    simpa using h ho

theorem handler_concludes {id : String} {handler : Handler σ}
    (h : table.handler? id = some handler) (payload : Value) (k : Nat) :
    (handler payload ctx).Concludes Signal.resumes k := by
  have telling (notice : Notice) : (ctx.host.tell notice).Concludes Signal.resumes k :=
    .bind (.emit _) fun _ => .of_const (fun _ _ => rfl) fun _ h => by cases h
  rcases handler_cases Job.total_closed hhost h payload with htotal | ⟨tool, rfl⟩ | ⟨-, rfl⟩
  · exact htotal.concludes _ _
  · exact wait_concludes hhost payload tool k
  · exact .bind (telling _) fun _ => .ofFallible_bind fun name _ => .bind (telling _) fun _ =>
      .bind (telling _) fun _ => .pure _

theorem handler_steady_of_total {id : String} {handler : Handler σ}
    (h : table.handler? id = some handler) (payload : Value) : (handler payload ctx).Steady := by
  rcases handler_cases Job.total_closed hhost h payload with htotal | ⟨tool, rfl⟩ | ⟨-, rfl⟩
  · exact htotal.steady
  · have hround := (waitRound_keeps Job.total_closed hhost tool).steady
    exact fun n m h => .bind (Job.steady_closed.announce _ _ _ n m h) fun _ =>
      .repeatFrom h (fun _ => hround n m h) ()
  · exact finish_steady payload ctx

end Builtin

/-! ## Recovery -/

namespace Flow

variable {k : Nat}

theorem inPart_concludes {flow : Flow σ α} (part : Part) (h : flow.Concludes Event.resumes k) :
    (inPart part flow).Concludes Event.resumes k :=
  .bind (.emit _) fun _ => .bind (.mapEvents _ h) fun a => .bind (.emit _) fun _ => .pure a

theorem failureOf_concludes {flow : Flow σ α} (h : flow.Concludes Event.resumes k) :
    (failureOf flow).Concludes Event.resumes k := by
  refine .bind (.attempt h) fun r => ?_
  split
  · exact .pure _
  · exact .pure _
  · exact .raise _

end Flow

namespace Recovery

variable {rules : Rules σ} {k : Nat}

theorem log_concludes (level : Level) (message : String) :
    (log level message : Flow σ Unit).Concludes Event.resumes k :=
  .emit _

theorem requireResume_concludes (d : Decision) (message : String) :
    (requireResume d message : Flow σ Unit).Concludes Event.resumes k := by
  unfold requireResume
  split
  · exact .pure _
  · exact .raise _

/-- A question that has to be answered so that the run can go on is, if the run does. -/
theorem ask_requireResume_resumes (rules : Rules σ) (prompt : Prompt) (hprompt : prompt ≠ .error)
    (f : ActionFailure) (step : Step) (data : List (String × Value)) (message : String) :
    (ask rules prompt f step data >>= fun d => requireResume d message).Ensures fun es o =>
      o = .returned () → 1 ≤ resumptions es := by
  refine (ask_requireResume rules prompt hprompt f step data message).mono fun es o h ho => ?_
  obtain ⟨before, d, -, hd, rfl⟩ := h.1 ho
  exact List.countP_pos_iff.mpr ⟨.answered prompt d, by simp, hd⟩

theorem unlockRound_resumes (rules : Rules σ) (step : Step) :
    (unlockRound rules step).Ensures fun es o =>
      o = .returned (.inl ()) → 1 ≤ resumptions es := by
  have never {γ : Type} {r : Flow σ γ} : r.Ensures fun _ _ => True := fun _ _ => trivial
  have leaving {r : Flow σ Unit} {result : Option ActionFailure} {es : List Event} :
      (r >>= fun _ => return .inr result : Flow σ (Unit ⊕ Option ActionFailure)).Ensures
        fun es' o => o = .returned (.inl ()) → 1 ≤ resumptions (es ++ es') :=
    Ensures.bind never (fun _ _ _ => Ensures.pure fun h => by cases h) (fun _ _ _ h => by cases h)
      fun _ _ h => by cases h
  refine Flow.failureOf_bind never (fun es _ _ => Ensures.pure fun h => by cases h)
    (fun es id cause _ => ?_) (fun es e _ _ h => by cases h) fun es _ h => by cases h
  dsimp only
  split
  · exact Ensures.raise fun h => by cases h
  split
  · rw [← bind_assoc]
    refine Ensures.bind (ask_requireResume_resumes rules .oemLock (by decide) _ _ _ _)
      (fun es' _ h => Ensures.pure fun _ => ?_) (fun _ _ _ h => by cases h) fun _ _ h => by cases h
    have := h rfl
    unfold resumptions at this ⊢
    simp only [List.countP_append]
    omega
  split
  · exact leaving
  split
  · rw [← bind_assoc]
    exact leaving
  · exact leaving

variable (hhost : rules.ctx.host.Total)
include hhost

theorem ask_concludes (prompt : Prompt) (f : ActionFailure) (step : Step)
    (data : List (String × Value)) :
    (ask rules prompt f step data).Concludes Event.resumes k := by
  have hask := Job.total_closed.ask hhost prompt (.ofFields data) (some f.id) (some step.raw)
    (some f.cause.text)
  refine .bind (.attempt (.mapEvents _ (hask.concludes _ _))) fun answer => ?_
  split
  · exact .bind (.emit _) fun _ => .pure _
  · exact .bind (.emit _) fun _ => .raise _

theorem generic_concludes (f : ActionFailure) (step : Step) :
    (generic rules f step).Concludes Event.resumes k := by
  refine .bind (log_concludes _ _) fun _ => .bind (ask_concludes hhost _ _ _ _) fun decision => ?_
  split
  · exact .pure _
  · exact .bind (log_concludes _ _) fun _ => .pure _
  · exact .bind (log_concludes _ _) fun _ => .pure _
  · exact .raise _

theorem lowBattery_concludes (f : ActionFailure) (step : Step) :
    (lowBattery rules f step).Concludes Event.resumes k :=
  .bind (log_concludes _ _) fun _ => .bind (ask_concludes hhost _ _ _ _) fun _ =>
    .bind (requireResume_concludes _ _) fun _ => .pure _

theorem connectionLost_concludes (f : ActionFailure) (step : Step) :
    (connectionLost rules f step).Concludes Event.resumes k :=
  .bind (ask_concludes hhost _ _ _ _) fun _ => .bind (requireResume_concludes _ _) fun _ => .pure _

theorem unlockRound_concludes
    (hacts : ∀ as, (rules.actions as).Concludes Event.resumes k) (step : Step) :
    (unlockRound rules step).Concludes Event.resumes k := by
  refine .bind (Flow.failureOf_concludes (.mapEvents _ (hacts _))) fun r => ?_
  rcases r with _ | ⟨id, cause⟩
  · exact .pure _
  dsimp only
  split
  · exact .raise _
  split
  · exact .bind (ask_concludes hhost _ _ _ _) fun _ =>
      .bind (requireResume_concludes _ _) fun _ => .pure _
  split
  · exact .bind (log_concludes _ _) fun _ => .pure _
  split
  · exact .bind (log_concludes _ _) fun _ =>
      .bind (Flow.inPart_concludes _ (hacts _)) fun _ => .pure _
  · exact .bind (log_concludes _ _) fun _ => .pure _

theorem runUnlock_concludes
    (hacts : ∀ as, (rules.actions as).Concludes Event.resumes k) (step : Step) :
    (runUnlock rules step).Concludes Event.resumes k := by
  refine .bind (.ofFallible _) fun applies => ?_
  split
  · refine .repeatFrom (fun _ => 0) (fun _ => unlockRound_concludes hhost hacts step)
      (fun _ => (unlockRound_resumes rules step).mono fun es o h _ ho => ?_) ()
    rw [Nat.zero_add, Nat.zero_add]
    exact h ho
  · exact .bind (log_concludes _ _) fun _ => .pure _

/-- The unlock flow is entered after an answer that lets the run go on, so fewer of them are left for
what happens in it. -/
theorem unlock_concludes
    (hacts : ∀ k', k' < k → ∀ as, (rules.actions as).Concludes Event.resumes k')
    (f : ActionFailure) (step : Step) :
    (unlock rules f step).Concludes Event.resumes k := by
  refine .bind (log_concludes _ _) fun _ => ?_
  rw [← bind_assoc]
  have asking : (ask rules .oemLock f step [("enable", .bool false)] >>= fun d =>
      requireResume d "bootloader unlock declined").Concludes Event.resumes k :=
    .bind (ask_concludes hhost _ _ _ _) fun _ => requireResume_concludes _ _
  refine asking.bind_of fun es _ hleaves hes => .bind (.emit _) fun _ => ?_
  obtain ⟨n, w, hevents, hending⟩ := hleaves
  have hresumed := ask_requireResume_resumes rules .oemLock (by decide) f step _ _ n w hending
  rw [hevents] at hresumed
  refine .bind (runUnlock_concludes hhost (hacts _ ?_) step) fun r => ?_
  · unfold resumptions at hresumed
    omega
  · rcases r with _ | f'
    · exact .bind (.emit _) fun _ => .pure _
    · exact generic_concludes hhost f' step

theorem reconnect_concludes
    (hact : (rules.actions [reconnectAction]).Concludes Event.resumes k) (f : ActionFailure)
    (step : Step) (count : Nat) : (reconnect rules f step count).Concludes Event.resumes k := by
  refine .bind (Flow.failureOf_concludes (Flow.inPart_concludes _ hact)) fun r => ?_
  rcases r with _ | ⟨id, cause⟩
  · exact .bind (log_concludes _ _) fun _ => .pure _
  · dsimp only
    split
    · exact .raise _
    · exact .bind (log_concludes _ _) fun _ => connectionLost_concludes hhost f step

theorem course_concludes
    (hacts : ∀ k', k' < k → ∀ as, (rules.actions as).Concludes Event.resumes k')
    (hreconnect : (rules.actions [reconnectAction]).Concludes Event.resumes k)
    {f : ActionFailure} {step : Step} {a a' : StepAttempt} {course : Flow σ Resolution}
    (hfallback : (rules.actions step.fallback).Concludes Event.resumes k)
    (h : Course rules f step a course a') : course.Concludes Event.resumes k := by
  cases h with
  | killed => exact .raise _
  | optional => exact .bind (log_concludes _ _) fun _ => .pure _
  | fallback =>
    exact .bind (log_concludes _ _) fun _ =>
      .bind (Flow.inPart_concludes _ hfallback) fun _ => .pure _
  | lowBattery => exact lowBattery_concludes hhost f step
  | unlock => exact unlock_concludes hhost hacts f step
  | connectionLost => exact connectionLost_concludes hhost f step
  | exhausted => exact .bind (log_concludes _ _) fun _ => connectionLost_concludes hhost f step
  | reconnect => exact reconnect_concludes hhost hreconnect f step _
  | generic => exact generic_concludes hhost f step

end Recovery

/-! ## Steps -/

namespace Flow

variable {ctx : Context σ} (hhost : ctx.host.Total) {runSteps : List Step → Flow σ Unit} {k : Nat}
include hhost

theorem callHandler_concludes (d : Dispatch) :
    (callHandler Builtin.table ctx d).Concludes Event.resumes k := by
  refine .ofFallible_bind fun handler hl => .bind (.emit _) fun _ => ?_
  have hh := Builtin.handler_concludes hhost (ActionTable.lookup_eq_ok.mp hl) d.payload k
  refine .bind (.rescue (.mapEvents _ hh) fun e => .bind (.emit _) fun _ => .raise e) fun v => ?_
  split
  · exact .ofFallible _
  · exact .pure _

/-- An action comes to an end if the steps that it may return do. -/
theorem action_concludes {a : Action}
    (hsteps : ∀ ss, Builtin.Expands a ss → (runSteps ss).Concludes Event.resumes k) :
    (action runSteps Builtin.table ctx a).Concludes Event.resumes k := by
  unfold action
  split
  · next e _ =>
    obtain ⟨e', heq⟩ := refuse_eq_raise e
    exact heq ▸ .raise e'
  next d hd =>
  refine .bind_of (.rescue (callHandler_concludes hhost d) fun e => .raise _) fun es ss hss _ => ?_
  have hexpands : Builtin.Expands a ss :=
    ((Builtin.callHandler_expands hd ctx).rescue fun e => .raise _).of_leaves hss
  split
  · exact .pure _
  · exact (inPart_concludes _ (hsteps ss hexpands)).mono (Nat.sub_le _ _)

theorem actions_concludes {as : List Action} (hsteps : ∀ a ∈ as, ∀ ss, Builtin.Expands a ss →
      (runSteps ss).Concludes Event.resumes k) :
    (actions runSteps Builtin.table ctx as).Concludes Event.resumes k :=
  .each fun a ha => action_concludes hhost (hsteps a ha)

end Flow

namespace Workflow

variable {wf : Workflow σ} {runSteps : List Step → Flow σ Unit}

/-- How many automatic reconnections a step has left. -/
def reconnectionsLeft (wf : Workflow σ) (a : StepAttempt) : Nat :=
  wf.reconnections.toNat - a.reconnections

/-- Recovery that grants another start was paid for by an answer, or by one of the reconnections that
were left. -/
theorem handle_resumes (f : ActionFailure) (s : Step) (a : StepAttempt) :
    (Recovery.handle (wf.rules runSteps) f s a).Ensures fun es o =>
      ∀ a', o = .returned (.replay, a') →
        wf.reconnectionsLeft a' + 1 ≤ wf.reconnectionsLeft a + resumptions es := by
  obtain ⟨course, a', hcourse, heq⟩ := Recovery.handle_course (wf.rules runSteps) f s a
  obtain ⟨-, hlimit, -, hgrants⟩ := Recovery.course_grants (rules_dispatches wf runSteps) hcourse
  rw [heq]
  refine Ensures.emit_bind (Ensures.bind hgrants (fun rec resolution h => ?_)
    (fun rec e _ a' h => by cases h) fun rec _ a' h => by cases h)
  refine Ensures.pure fun a'' ha'' => ?_
  cases ha''
  -- What was paid with is an answer or a reconnection, and the limit bounds the latter.
  have hpaid := h.payment rfl
  have hfunded := h.funded
  have hreconnection := h.reconnection
  have hanswers := count_resumption_le rec
  unfold resumptions at hanswers ⊢
  unfold reconnectionsLeft
  rw [List.append_nil, List.countP_cons]
  change (a'.reconnections = a.reconnections ∨ (a.reconnections : Int) < wf.reconnections ∧
    a'.reconnections = a.reconnections + 1) at hlimit
  omega

/-- So was a start that grants another one. -/
theorem start_resumes (s : Step) (a : StepAttempt) :
    (wf.start runSteps s a).Ensures fun es o => ∀ a', o = .returned (.inl a') →
      wf.reconnectionsLeft a' + 1 ≤ wf.reconnectionsLeft a + resumptions es := by
  have never {γ : Type} {r : Flow σ γ} : r.Ensures fun _ _ => True := fun _ _ => trivial
  refine (start_ensures never never fun f => handle_resumes f s a).mono fun es o h a' ha' => ?_
  cases h with
  | unreached _ ho | broken _ _ ho | unhandled _ _ _ _ ho => exact absurd (congrArg Ending.forget ha') ho
  | replayed _ _ hr =>
    cases ha'
    have hpaid := hr _ rfl
    unfold resumptions at hpaid ⊢
    unfold reconnectionsLeft at hpaid ⊢
    simp only [List.countP_append, List.countP_cons]
    omega
  | _ => cases ha'

section

variable (htable : wf.table = Builtin.table) (hhost : wf.ctx.host.Total) {k : Nat}
include htable hhost

/-- The steady part of what follows: more budget lets a workflow go on where it stopped. -/
theorem steady_of_total : wf.Steady where
  handles _ _ payload h := Builtin.handler_steady_of_total hhost (htable ▸ h) payload
  pauses := hhost.pause.steady
  decides request := (hhost.decide request).steady

/-- A step comes to an end if the steps that its actions may return do, and with fewer answers
everything does. -/
theorem step_concludes {s : Step}
    (hsteps : ∀ a ∈ s.actions ++ s.fallback, ∀ ss, Builtin.Expands a ss →
      (runSteps ss).Concludes Event.resumes k)
    (hnone : (runSteps []).Concludes Event.resumes k)
    (hfewer : ∀ k', k' < k → ∀ ss, (runSteps ss).Concludes Event.resumes k') :
    (wf.step runSteps s).Concludes Event.resumes k := by
  have hacts {k' : Nat} {as : List Action} (h : ∀ a ∈ as, ∀ ss, Builtin.Expands a ss →
      (runSteps ss).Concludes Event.resumes k') :
      ((wf.rules runSteps).actions as).Concludes Event.resumes k' := by
    change (Flow.actions runSteps wf.table wf.ctx as).Concludes Event.resumes k'
    rw [htable]
    exact Flow.actions_concludes hhost h
  have hreconnect : ((wf.rules runSteps).actions [Recovery.reconnectAction]).Concludes
      Event.resumes k := by
    refine hacts fun a ha ss hss => ?_
    cases List.mem_singleton.mp ha
    rw [hss.eq_nil (by decide) (by decide)]
    exact hnone
  refine .repeatFrom wf.reconnectionsLeft (fun a => ?_) (start_resumes s) {}
  refine .bind (.mapEvents _ (hhost.pause.concludes _ _)) fun _ => .bind (.ofFallible _) fun _ => ?_
  split
  · refine .bind (.ofFallible _) fun text => .bind (.emit _) fun _ => ?_
    have hactions := hacts fun a ha => hsteps a (List.mem_append_left _ ha)
    refine .bind (Flow.failureOf_concludes hactions) fun r => ?_
    rcases r with _ | ⟨id, cause⟩
    · exact .pure _
    · obtain ⟨course, a', hcourse, heq⟩ :=
        Recovery.handle_course (wf.rules runSteps) ⟨id, cause⟩ s a
      have hconcludes := Recovery.course_concludes hhost
        (fun k' hk' as => hacts fun a _ ss _ => hfewer k' hk' ss) hreconnect
        (hacts fun a ha => hsteps a (List.mem_append_right _ ha)) hcourse
      dsimp only
      rw [heq]
      simp only [bind_assoc, pure_bind]
      refine .bind (.emit _) fun _ => .bind hconcludes fun resolution => ?_
      cases resolution with
      | done => exact .pure _
      | replay => exact .bind (.ofFallible _) fun _ => .bind (.emit _) fun _ => .pure _
  · exact .bind (.ofFallible _) fun text => .bind (.emit _) fun _ => .pure _

/-- Steps come to an end, at whatever depth, unless more than `k` questions are answered so that the
run can go on. -/
theorem runSteps_concludes (k : Nat) (ss : List Step) :
    (wf.runSteps ss).Concludes Event.resumes k := by
  induction k using Nat.strongRecOn generalizing ss with
  | ind k ih =>
    have hsteady := steady_of_total htable hhost
    have listed (ss : List Step)
        (h : ∀ s ∈ ss, (wf.step wf.runSteps s).Concludes Event.resumes k) :
        (wf.runSteps ss).Concludes Event.resumes k :=
      .of_grows (fun n => runSteps_grows hsteady n ss) (.each h)
    have hnone := listed [] fun s hs => by cases hs
    -- The steps in a step are smaller, and the unlock flow is left to fewer answers.
    have hstep (s : Step) : (wf.step wf.runSteps s).Concludes Event.resumes k := by
      induction s using Step.groups_wellFounded.induction with
      | h s inner =>
        refine step_concludes htable hhost (fun a ha ss hss => ?_) hnone ih
        cases hss with
        | nothing => exact hnone
        | group h => exact listed ss fun s' hs' => inner s' ⟨a, ha, ss, h, hs'⟩
        | wait hid name action haction raw =>
          refine listed _ fun s' hs' => ?_
          cases List.mem_singleton.mp hs'
          refine step_concludes htable hhost (fun b hb ss hss => ?_) hnone ih
          cases List.mem_singleton.mp hb
          rw [Builtin.eq_nil_of_waitFor? haction hss]
          exact hnone
    exact listed ss fun s _ => hstep s

/-- With the built-in handlers and a host of which each single call ends, a run in which only so many
questions are answered so that it can go on, whatever the budget, comes to its end: it is one finished
trail with enough budget, and with less the beginning of that trail, so it has no more events than the
trail has. -/
theorem run_ends_unattended {steps : List Step} {w : σ}
    (hanswers : ∃ k, ∀ n, resumptions (wf.run steps n w).events ≤ k) :
    ∃ t, t.ending ≠ .unfinished ∧ (∃ n, ∀ m, n ≤ m → wf.run steps m w = t) ∧
      ∀ n, (wf.run steps n w).Precedes t := by
  obtain ⟨k, hk⟩ := hanswers
  have hrun : (wf.run steps).Concludes Event.resumes k := by
    refine .rescue (.bind (runSteps_concludes htable hhost k steps) fun _ => .pure _) fun e => ?_
    split
    · exact .mapEvents _ (.of_const (fun _ _ => rfl) fun _ h => by cases h)
    · exact .raise _
  rcases hrun w with ⟨t, ht, n, hn⟩ | ⟨n, hn⟩
  · have hprecedes := (run_steady (steady_of_total htable hhost) steps).precedes
      (n := n) (w := w) (by rwa [hn n (Nat.le_refl n)])
    rw [hn n (Nat.le_refl n)] at hprecedes
    exact ⟨t, ht, ⟨n, hn⟩, hprecedes⟩
  · have := hn n (Nat.le_refl n)
    have := hk n
    unfold resumptions at this
    omega

end

/-- A device that is plugged in when the user is asked to ends a run that waits for it. -/
theorem plugged_in_run_ends :
    let host : Host Bool := {
      Host.answering {} with
      decide := fun _ => Run.world fun _ => ({}, true)
      tools := {
        (Host.answering {}).tools with
        hasAccess := fun _ => Run.world fun plugged => (plugged, plugged) } }
    let wf : Workflow Bool := {
      table := Builtin.table
      ctx := { device := default, system := default, settings := {}, host, cache := default } }
    let step : Step := { actions := [.named "adb:wait"] }
    wf.ctx.host.Total ∧ (∀ n, resumptions (wf.run [step] n false).events ≤ 1) ∧
      ∃ t, t.ending ≠ .unfinished ∧ (∃ n, ∀ m, n ≤ m → wf.run [step] m false = t) ∧
        ∀ n, (wf.run [step] n false).Precedes t := by
  intro host wf step
  have hhost : wf.ctx.host.Total := { Host.answering_keeps {} Job.total_closed with
    decide := fun _ => .world fun _ => (({} : Decision), true)
    hasAccess := fun _ => .world fun plugged => (plugged, plugged) }
  have hended : (wf.run [step] 2 false).ending = .returned true := by cbv
  have hcount : resumptions (wf.run [step] 2 false).events = 1 := by cbv
  have hanswers (n : Nat) : resumptions (wf.run [step] n false).events ≤ 1 := by
    have hsteady : wf.Steady := steady_of_total rfl hhost
    have hfinished : (wf.run [step] 2 false).ending ≠ .unfinished := by simp [hended]
    have hprecedes := (run_steady hsteady [step]).precedes hfinished n
    exact hcount ▸ (Trail.Precedes.events_prefix hprecedes).sublist.countP_le
  have htable : wf.table = Builtin.table := rfl
  exact ⟨hhost, hanswers, run_ends_unattended htable hhost ⟨1, hanswers⟩⟩

end Workflow

end Reflash
