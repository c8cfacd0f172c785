import Reflash.Proofs.Recovery

set_option autoImplicit false

/-! # What one start of a step can do

A step that is started is paused before, judged by its condition and shown, and only then are its
actions carried out; what becomes of their failure is up to recovery. `Workflow.Starts` lists the ways
in which this can go, and `Workflow.start_ensures` says that there are no others. -/

namespace Reflash

open Run

variable {σ : Type}

namespace Workflow

/-! ## Calls of handlers -/

/-- What the call of a handler leaves and comes to: the steps that the value which it returned
lists. -/
inductive Calls (wf : Workflow σ) (d : Dispatch) : List Event → Ending (List Step) → Prop
  | unregistered (hnone : wf.table.handler? d.id = none) :
    Calls wf d [] (.raised (.unknownAction d.id))
  | returned {handler : Handler σ} {signals : List Signal} {v : Value} {ss : List Step}
    (hhandler : wf.table.handler? d.id = some handler)
    (hleaves : (handler d.payload wf.ctx).Leaves signals (.returned v))
    (hread : Flow.substepsOf d v = .ok ss) : Calls wf d (Flow.called d signals) (.returned ss)
  | misread {handler : Handler σ} {signals : List Signal} {v : Value} {e : Fault}
    (hhandler : wf.table.handler? d.id = some handler)
    (hleaves : (handler d.payload wf.ctx).Leaves signals (.returned v))
    (hread : Flow.substepsOf d v = .error e) : Calls wf d (Flow.called d signals) (.raised e)
  | failed {handler : Handler σ} {signals : List Signal} {e : Fault}
    (hhandler : wf.table.handler? d.id = some handler)
    (hleaves : (handler d.payload wf.ctx).Leaves signals (.raised e)) :
    Calls wf d (Flow.called d signals ++ [.raised e]) (.raised e)
  | cut {handler : Handler σ} {signals : List Signal}
    (hhandler : wf.table.handler? d.id = some handler)
    (hleaves : (handler d.payload wf.ctx).Leaves signals .unfinished) :
    Calls wf d (Flow.called d signals) .unfinished

theorem callHandler_calls (wf : Workflow σ) (d : Dispatch) :
    (Flow.callHandler wf.table wf.ctx d).Ensures (wf.Calls d) := by
  refine Flow.callHandler_ensures (R := fun es o => ∃ handler,
    wf.table.handler? d.id = some handler ∧ (handler d.payload wf.ctx).Leaves es o)
    (fun handler h n w => ⟨handler, h, n, w, rfl, rfl⟩) .unregistered
    (fun es v ss ⟨_, h, hleaves⟩ hread => .returned h hleaves hread)
    (fun es v e ⟨_, h, hleaves⟩ hread => .misread h hleaves hread)
    (fun es e ⟨_, h, hleaves⟩ => .failed h hleaves) fun es ⟨_, h, hleaves⟩ => .cut h hleaves

/-! ## Starts of steps -/

/-- The actions that recovery can carry out for the sake of a step. Those of the unlock step are
carried out only if its condition holds. -/
inductive Stands (wf : Workflow σ) (s : Step) : Part → List Action → Prop
  | fallback : Stands wf s .fallback s.fallback
  | unlock (hc : Condition.evaluate wf.ctx.device.unlockStep.condition wf.ctx.settings.data =
      .ok true) : Stands wf s .unlock wf.ctx.device.unlockStep.actions
  | unlockFallback (hc : Condition.evaluate wf.ctx.device.unlockStep.condition
      wf.ctx.settings.data = .ok true) :
    Stands wf s .unlockFallback wf.ctx.device.unlockStep.fallback
  | reconnect : Stands wf s .reconnect [Recovery.reconnectAction]

/-- A step is judged: after a pause that is as `P` says, its condition is decided by the settings, and
the step is shown. -/
structure Judged (wf : Workflow σ) (s : Step) (P : List Event → Ending Unit → Prop)
    (pre : List Event) (applies : Bool) (text : String) : Prop where
  paused : P pre (.returned ())
  decided : Condition.evaluate s.condition wf.ctx.settings.data = .ok applies
  shown : s.describe = .ok text

/-- What a start of a step can leave and how it can end, for a pause that ensures `P`, actions that
ensure `A` and recovery that ensures `H`. -/
inductive Starts (wf : Workflow σ) (s : Step) (P A : List Event → Ending Unit → Prop)
    (H : ActionFailure → List Event → Ending (Resolution × StepAttempt) → Prop) :
    List Event → Ending (StepAttempt ⊕ Unit) → Prop
  | unreached {pre : List Event} {o : Ending (StepAttempt ⊕ Unit)} (hp : P pre o.forget)
    (ho : o.forget ≠ .returned ()) : Starts wf s P A H pre o
  | undecided {pre : List Event} {e : Fault} (hp : P pre (.returned ()))
    (hc : Condition.evaluate s.condition wf.ctx.settings.data = .error e) :
    Starts wf s P A H pre (.raised e)
  | unshown {pre : List Event} {e : Fault} (hp : P pre (.returned ()))
    (hs : s.describe = .error e) : Starts wf s P A H pre (.raised e)
  | skipped {pre : List Event} {text : String} (hj : wf.Judged s P pre false text) :
    Starts wf s P A H (pre ++ [.skipped text]) (.returned (.inr ()))
  | through {pre acts : List Event} {text : String} (hj : wf.Judged s P pre true text)
    (ha : A acts (.returned ())) :
    Starts wf s P A H (pre ++ .started text :: acts) (.returned (.inr ()))
  | broken {pre acts : List Event} {text : String} {o : Ending (StepAttempt ⊕ Unit)}
    (hj : wf.Judged s P pre true text) (ha : A acts o.forget) (ho : o.forget ≠ .returned ())
    (hne : ∀ id c, o.forget ≠ .raised (.inAction id c)) :
    Starts wf s P A H (pre ++ .started text :: acts) o
  | unhandled {pre acts rec : List Event} {text id : String} {c : Fault}
    {o : Ending (StepAttempt ⊕ Unit)} {o' : Ending (Resolution × StepAttempt)}
    (hj : wf.Judged s P pre true text) (ha : A acts (.raised (.inAction id c))) (hr : H ⟨id, c⟩ rec o')
    (heq : o.forget = o'.forget) (ho : o.forget ≠ .returned ()) :
    Starts wf s P A H (pre ++ .started text :: (acts ++ rec)) o
  | handled {pre acts rec : List Event} {text id : String} {c : Fault} {a : StepAttempt}
    (hj : wf.Judged s P pre true text) (ha : A acts (.raised (.inAction id c)))
    (hr : H ⟨id, c⟩ rec (.returned (.done, a))) :
    Starts wf s P A H (pre ++ .started text :: (acts ++ rec)) (.returned (.inr ()))
  | replayed {pre acts rec : List Event} {text id : String} {c : Fault} {a : StepAttempt}
    (hj : wf.Judged s P pre true text) (ha : A acts (.raised (.inAction id c)))
    (hr : H ⟨id, c⟩ rec (.returned (.replay, a))) :
    Starts wf s P A H
      (pre ++ .started text :: (acts ++ (rec ++ [.replayed text (a.replays + 1)])))
      (.returned (.inl { a with replays := a.replays + 1 }))

variable {wf : Workflow σ} {runSteps : List Step → Flow σ Unit}

/-- A start of a step goes in one of these ways. -/
theorem start_ensures {P A : List Event → Ending Unit → Prop}
    {H : ActionFailure → List Event → Ending (Resolution × StepAttempt) → Prop} {s : Step}
    {a : StepAttempt} (hpause : (Flow.ofRecovery wf.ctx.host.pause).Ensures P)
    (hacts : (Flow.actions runSteps wf.table wf.ctx s.actions).Ensures A)
    (hhandle : ∀ f, (Recovery.handle (wf.rules runSteps) f s a).Ensures (H f)) :
    (wf.start runSteps s a).Ensures (wf.Starts s P A H) := by
  refine Ensures.bind hpause (fun pre _ hp => ?_) (fun es e hp => .unreached hp (by simp))
    fun es hp => .unreached hp (by simp)
  refine Ensures.ofFallible_bind (fun applies hc => ?_) fun e hc => ?_
  · have unshown (e : Fault) (hs : s.describe = .error e) :
        wf.Starts s P A H (pre ++ []) (.raised e) := by
      rw [List.append_nil]
      exact .unshown hp hs
    cases applies with
    | false =>
      exact Ensures.ofFallible_bind (fun text hs => Ensures.emit_bind
        (Ensures.pure (.skipped ⟨hp, hc, hs⟩))) unshown
    | true =>
      refine Ensures.ofFallible_bind (fun text hs => Ensures.emit_bind ?_) unshown
      have hj : wf.Judged s P pre true text := ⟨hp, hc, hs⟩
      refine Flow.failureOf_bind hacts (fun acts _ ha => ?_) (fun acts id c ha => ?_)
        (fun acts e hne ha => ?_) fun acts ha => ?_
      · refine Ensures.pure ?_
        rw [List.append_nil]
        exact .through hj ha
      · refine Ensures.bind (hhandle ⟨id, c⟩) (fun rec r hr => ?_)
          (fun rec e hr => .unhandled hj ha hr rfl (by simp))
          fun rec hr => .unhandled hj ha hr rfl (by simp)
        obtain ⟨_ | _, a'⟩ := r
        · refine Ensures.pure ?_
          rw [List.append_nil]
          exact .handled hj ha hr
        · -- The step was shown before, so it can be shown again.
          refine Ensures.ofFallible_bind (fun text' hs' => ?_) fun e he => ?_
          · cases hs.symm.trans hs'
            exact Ensures.emit_bind (Ensures.pure (.replayed hj ha hr))
          · cases hs.symm.trans he
      · exact .broken hj ha (by simp) fun id c h => hne id c (Ending.raised.inj h)
      · exact .broken hj ha (by simp) (by simp)
  · show wf.Starts s P A H (pre ++ []) (.raised e)
    rw [List.append_nil]
    exact .undecided hp hc

/-! ## Starts whose actions fail -/

/-- A start of a step gets as far as its actions, and they end with the failure `f`. -/
structure Fails (wf : Workflow σ) (runSteps : List Step → Flow σ Unit) (s : Step) (b : Nat) (w : σ)
    (text : String) (f : ActionFailure) (paused acts : List Event) (w₁ w₂ : σ) : Prop where
  paused : Flow.ofRecovery wf.ctx.host.pause b w = ⟨.returned (), paused, w₁⟩
  decided : Condition.evaluate s.condition wf.ctx.settings.data = .ok true
  shown : s.describe = .ok text
  failed : Flow.actions runSteps wf.table wf.ctx s.actions b w₁ =
    ⟨.raised (.inAction f.id f.cause), acts, w₂⟩

/-- What a start of a step comes to with what recovery comes to. -/
def concluded (text : String) (a : StepAttempt) :
    Trail Event σ Resolution → Trail Event σ (StepAttempt ⊕ Unit)
  | ⟨.returned .done, es, w⟩ => ⟨.returned (.inr ()), es, w⟩
  | ⟨.returned .replay, es, w⟩ =>
    ⟨.returned (.inl { a with replays := a.replays + 1 }),
      es ++ [.replayed text (a.replays + 1)], w⟩
  | ⟨.raised e, es, w⟩ => ⟨.raised e, es, w⟩
  | ⟨.unfinished, es, w⟩ => ⟨.unfinished, es, w⟩

/-- Such a start leaves the course of recovery after the events of its actions, and ends as that does. -/
theorem start_of_failure {s : Step} {b : Nat} {w w₁ w₂ : σ} {text : String} {f : ActionFailure}
    {paused acts : List Event} (h : wf.Fails runSteps s b w text f paused acts w₁ w₂)
    {a a' : StepAttempt} {course : Flow σ Resolution}
    (hcourse : Recovery.handle (wf.rules runSteps) f s a = do
      Run.emit (.failed f.id f.cause)
      let resolution ← course
      return (resolution, a')) :
    wf.start runSteps s a b w = (concluded text a' (course b w₂)).after
      (paused ++ .started text :: (acts ++ [.failed f.id f.cause])) := by
  obtain ⟨id, cause⟩ := f
  have hacts : Flow.failureOf (Flow.actions runSteps wf.table wf.ctx s.actions) b w₁ =
      ⟨.returned (some (id, cause)), acts, w₂⟩ := by
    rw [Flow.failureOf_apply, h.failed]
  unfold start
  rw [bind_of_returned h.paused, h.decided, h.shown]
  simp only [ofFallible_ok_bind, if_true]
  rw [bind_of_returned (r := Run.emit _) rfl, bind_of_returned hacts]
  simp only [hcourse, bind_assoc, pure_bind]
  rw [bind_of_returned (r := Run.emit _) rfl, bind_apply]
  simp only [Trail.after_after]
  rcases course b w₂ with ⟨(_ | _) | e | _, es, w'⟩
  all_goals simp [concluded, Trail.after, Pure.pure, Run.pure, bind_apply, Run.emit]

end Workflow

end Reflash
