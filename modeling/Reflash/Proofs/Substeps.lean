import Reflash.Proofs.Acceptance
import Reflash.Proofs.Fallback
import Reflash.Proofs.StandIn

set_option autoImplicit false

/-! # Substeps are all or nothing

The steps that a handler returns are all read before the first of them is started. If the value lists
anything but well-formed steps, the action fails and none of them is run (`Flow.action_of_malformed`).
Otherwise they are run in order, and the action ends as they do (`Flow.action_of_listed`): nothing that
leaves them is made a failure of the action that listed them. What does leave them as the failure of an
action is that of a fallback below them (`Workflow.Nesting.fails`). -/

namespace Reflash

open Run

variable {σ : Type}

/-! ## Reading the substeps -/

namespace Flow

theorem substepsOf_of_listed (d : Dispatch) {v : Value} (h : Step.Listed v) :
    ∃ steps, Step.listOf (d.id ++ " substeps") v = .ok steps ∧ substepsOf d v = .ok steps := by
  obtain ⟨steps, hsteps⟩ := (Step.listOf_reads (d.id ++ " substeps") v).accepts.mpr h
  refine ⟨steps, hsteps, ?_⟩
  unfold substepsOf
  split
  · exact hsteps
  · next hfalse =>
    -- A value that counts as false lists steps only if it lists none.
    rcases h with rfl | ⟨vs, rfl, -⟩
    · exact hsteps
    · cases vs with
      | nil => exact hsteps
      | cons v vs => exact absurd rfl hfalse

theorem substepsOf_of_malformed (d : Dispatch) {v : Value} (htruth : v.truth = true)
    (h : ¬Step.Listed v) : ∃ e, Step.Refusal e ∧ substepsOf d v = .error e := by
  have hreads := Step.listOf_reads (d.id ++ " substeps") v
  rw [substepsOf, if_pos htruth]
  cases hread : Step.listOf (d.id ++ " substeps") v with
  | ok steps => exact absurd (hreads.accepts.mp ⟨steps, hread⟩) h
  | error e => exact ⟨e, hreads.refuses e hread, rfl⟩

/-! ## Carrying out the action -/

section

variable {table : ActionTable σ} {ctx : Context σ} {d : Dispatch} {handler : Handler σ} {n : Nat}
  {w w' : σ} {v : Value} {signals : List Signal}

variable {a : Action} (hd : a.dispatch = .ok d) (hhandler : table.handler? d.id = some handler)
  (hrun : handler d.payload ctx n w = ⟨.returned v, signals, w'⟩)
  (runSteps : List Step → Flow σ Unit)
include hd hhandler hrun

/-- What is not a list of steps is a failure of the action, and the last that happens in it. -/
theorem action_of_malformed (htruth : v.truth = true) (h : ¬Step.Listed v) :
    ∃ e, Step.Refusal e ∧ action runSteps table ctx a n w =
      ⟨.raised (.inAction a.id.text e), called d signals, w'⟩ := by
  obtain ⟨e, hrefusal, hread⟩ := substepsOf_of_malformed d htruth h
  refine ⟨e, hrefusal, ?_⟩
  rw [action_eq hd, bind_apply, Run.rescue, callHandler_apply hhandler, hrun, ← dispatch_id hd]
  cases hrefusal <;> simp [hread, Run.ofFallible, Run.raise, Trail.after, asFailureOf]

/-- The run of the steps that were read is the rest of the action. -/
theorem action_of_listed (h : Step.Listed v) :
    ∃ steps, Step.listOf (a.id.text ++ " substeps") v = .ok steps ∧
      action runSteps table ctx a n w =
        ((if steps.isEmpty then Pure.pure () else inPart .substeps (runSteps steps) : Flow σ Unit)
          n w').after (called d signals) := by
  obtain ⟨steps, hlist, hread⟩ := substepsOf_of_listed d h
  refine ⟨steps, dispatch_id hd ▸ hlist, ?_⟩
  have hcall : callHandler table ctx d n w = ⟨.returned steps, called d signals, w'⟩ := by
    rw [callHandler_apply hhandler, hrun]
    simp [hread, Run.ofFallible, Run.pure, Trail.after]
  rw [action_eq hd, bind_of_returned (rescue_of_returned hcall _)]

end

end Flow

/-! ## Running the substeps -/

namespace Workflow

variable {wf : Workflow σ} {runSteps : List Step → Flow σ Unit}

/-- Steps are run in order, unless they are nested deeper than the budget lets them be. -/
theorem Nesting.inOrder (h : wf.Nesting runSteps) (steps : List Step) (n : Nat) (w : σ) :
    runSteps steps n w = ⟨.unfinished, [], w⟩ ∨
      ∃ below, wf.Nesting below ∧ InOrder (wf.step below) n steps w (runSteps steps n w) := by
  have atDepth (depth : Nat) : wf.runStepsTo depth steps n w = ⟨.unfinished, [], w⟩ ∨
      ∃ below, wf.Nesting below ∧
        InOrder (wf.step below) n steps w (wf.runStepsTo depth steps n w) := by
    cases depth with
    | zero => exact .inl rfl
    | succ depth => exact .inr ⟨_, .upTo depth, each_inOrder _ _ _ _⟩
  cases h with
  | full => exact atDepth n
  | upTo depth => exact atDepth depth

/-- A failure of an action that leaves steps is that of a fallback below one of them. -/
theorem Nesting.fails (hwf : wf.Candid) (h : wf.Nesting runSteps) (steps : List Step) :
    (runSteps steps).Ensures fun _ o => ∀ id c, o = .raised (.inAction id c) →
      ∃ s ∈ steps, ∃ below es, wf.Nesting below ∧ FallbackFailure wf below s es id c := by
  have atDepth (depth : Nat) : (wf.runStepsTo depth steps).Ensures fun _ o =>
      ∀ id c, o = .raised (.inAction id c) →
        ∃ s ∈ steps, ∃ below es, wf.Nesting below ∧ FallbackFailure wf below s es id c := by
    have hP : Composes fun (_ : List Event) o => ∀ id c, o = .raised (.inAction id c) →
        ∃ s ∈ steps, ∃ below es, wf.Nesting below ∧ FallbackFailure wf below s es id c :=
      ⟨fun _ _ h => (by cases h), fun _ _ h => (by cases h), fun _ h => h⟩
    cases depth with
    | zero => exact Ensures.unfinished fun _ _ h => by cases h
    | succ depth =>
      refine (hP.each fun s hs => ?_).mono fun es o h id c ho => h id c (by rw [ho]; rfl)
      exact (step_fails hwf _ s).mono fun es o h id c ho =>
        ⟨s, hs, _, es, .upTo depth, h id c (Ending.forget_eq_raised ho)⟩
  cases h with
  | full => exact Ensures.withBudget fun depth => atDepth depth
  | upTo depth => exact atDepth depth

/-- Whatever a handler returns, the steps that it lists are run as a whole or not at all. A value that
counts as true and does not list well-formed steps is a generic failure of the action, with which it
ends: nothing happens after the call of the handler. Steps that are listed are run in order, from the
world in which the handler left, and the action ends as they do, in the same world and with the same
fault. The failure of an action with which they end is that of a fallback below one of them. -/
theorem substeps_all_or_nothing (hnesting : wf.Nesting runSteps) {a : Action} {d : Dispatch}
    (hd : a.dispatch = .ok d) {handler : Handler σ}
    (hhandler : wf.table.handler? d.id = some handler) {n : Nat} {w w' : σ} {v : Value}
    {signals : List Signal}
    (hrun : handler d.payload wf.ctx n w = ⟨.returned v, signals, w'⟩) :
    (v.truth = true → ¬Step.Listed v → ∃ f : ActionFailure, f.id = a.id.text ∧ f.kind = .generic ∧
      Flow.action runSteps wf.table wf.ctx a n w =
        ⟨.raised (.inAction f.id f.cause), Flow.called d signals, w'⟩) ∧
    (Step.Listed v → ∃ steps, Step.listOf (a.id.text ++ " substeps") v = .ok steps ∧
      (steps = [] → Flow.action runSteps wf.table wf.ctx a n w =
        ⟨.returned (), Flow.called d signals, w'⟩) ∧
      (steps ≠ [] → ∃ t, runSteps steps n w' = t ∧
        Flow.action runSteps wf.table wf.ctx a n w =
          ⟨t.ending, Flow.called d signals ++ .entered .substeps ::
            (t.events.map (.within .substeps) ++ Flow.leaving .substeps t.ending), t.world⟩ ∧
        (t = ⟨.unfinished, [], w'⟩ ∨
          ∃ below, wf.Nesting below ∧ InOrder (wf.step below) n steps w' t) ∧
        (wf.Candid → ∀ id c, t.ending = .raised (.inAction id c) →
          ∃ s ∈ steps, ∃ below es, wf.Nesting below ∧ FallbackFailure wf below s es id c))) := by
  refine ⟨fun htruth hmalformed => ?_, fun hlisted => ?_⟩
  · obtain ⟨e, hrefusal, haction⟩ :=
      Flow.action_of_malformed hd hhandler hrun runSteps htruth hmalformed
    exact ⟨⟨a.id.text, e⟩, rfl, by cases hrefusal <;> rfl, haction⟩
  · obtain ⟨steps, hread, haction⟩ := Flow.action_of_listed hd hhandler hrun runSteps hlisted
    refine ⟨steps, hread, fun hnil => ?_, fun hcons => ⟨_, rfl, ?_, ?_, fun hwf id c => ?_⟩⟩
    · rw [haction, hnil]
      simp [pure_apply, Trail.after]
    · rw [haction, if_neg (by simpa using hcons), Flow.inPart_apply]
      rfl
    · exact hnesting.inOrder steps n w'
    · exact hnesting.fails hwf steps n w' id c

/-- A malformed step at the end of the list keeps the one before it from being run. Without it the
first step is run, and the failure of the second is that of its fallback. -/
theorem listed_substeps_run_or_not :
    let counted : Value := .ofFields [("actions", .list [.ofFields [("t:count", .null)]])]
    let replaced : Value := .ofFields [("actions", .list [.ofFields [("t:gone", .null)]]),
      ("fallback", .list [.ofFields [("t:broken", .null)]])]
    let malformed : Value := .ofFields [("type", .str "adb:reboot"), ("fallback", .str "t:count")]
    let lists : Handler Nat := fun payload _ => return payload
    let wf : Workflow Nat := .plain {} [
      ("list", some lists),
      ("count", some fun _ _ => Run.world fun runs => (.null, runs + 1)),
      ("gone", some fun _ _ => Run.raise (.failure .noDevice "gone")),
      ("broken", some fun _ _ => Run.raise (.failure .generic "broken"))]
    let listing (vs : List Value) : Trail Event Nat Unit :=
      Flow.action wf.runSteps wf.table wf.ctx (.named "t:list" (.list vs)) 2 0
    (∃ f : ActionFailure, f.id = "t:list" ∧ f.kind = .generic ∧
      (listing [counted, malformed]).ending = .raised (.inAction f.id f.cause) ∧
      (listing [counted, malformed]).world = 0) ∧
    (listing [counted, replaced]).ending =
      .raised (.inAction "t:broken" (.failure .generic "broken")) ∧
    (listing [counted, replaced]).world = 1 ∧
    ∃ s below es, FallbackFailure wf below s es "t:broken" (.failure .generic "broken") := by
  intro counted replaced malformed lists wf listing
  have hd (vs : List Value) : (Action.named "t:list" (.list vs)).dispatch =
      .ok ⟨"t:list", "t", "list", .list vs⟩ := by cbv
  have hhandler : wf.table.handler? "t:list" = some lists := by cbv
  have hformed (v : Value) (h : (Step.ofValue "" v).isOk) : Step.Formed v := by
    refine (Step.ofValue_reads "" v).accepts.mp ?_
    cases hv : Step.ofValue "" v with
    | ok s => exact ⟨s, rfl⟩
    | error e => simp [hv, Except.isOk, Except.toBool] at h
  have hmalformed : ¬Step.Listed (.list [counted, malformed]) := fun h => by
    obtain ⟨steps, hsteps⟩ := (Step.listOf_reads "" _).accepts.mpr h
    have hrefused : (Step.listOf "" (.list [counted, malformed])).isOk = false := by cbv
    rw [hsteps] at hrefused
    cases hrefused
  have hlisted : Step.Listed (.list [counted, replaced]) :=
    .inr ⟨_, rfl, by simp [hformed counted (by cbv), hformed replaced (by cbv)]⟩
  have hending : (listing [counted, replaced]).ending =
      .raised (.inAction "t:broken" (.failure .generic "broken")) := by
    simp only [listing]
    cbv
  have hworld : (listing [counted, replaced]).world = 1 := by
    simp only [listing]
    cbv
  have hcandid : wf.Candid := {
    pauses := fun n w id c h => by cases h
    decides := fun request n w id c h => by cases h }
  have hdone (vs : List Value) : lists (.list vs) wf.ctx 2 0 = ⟨.returned (.list vs), [], 0⟩ := rfl
  refine ⟨?_, hending, hworld, ?_⟩
  · obtain ⟨f, hid, hkind, hlisting⟩ :=
      (substeps_all_or_nothing .full (hd _) hhandler (hdone _)).1 rfl hmalformed
    exact ⟨f, hid, hkind, congrArg Trail.ending hlisting, congrArg Trail.world hlisting⟩
  · obtain ⟨steps, -, hnil, hcons⟩ :=
      (substeps_all_or_nothing .full (hd _) hhandler (hdone _)).2 hlisted
    have hsteps : steps ≠ [] := fun h => by
      cases (congrArg Trail.ending (hnil h)).symm.trans hending
    obtain ⟨t, -, hlisting, -, hfails⟩ := hcons hsteps
    obtain ⟨s, -, below, es, -, hfailure⟩ :=
      hfails hcandid _ _ ((congrArg Trail.ending hlisting).symm.trans hending)
    exact ⟨s, below, es, hfailure⟩

end Workflow

end Reflash
