import Mathlib
import Reflash.Proofs.Questions
import Reflash.Proofs.Replay
import Reflash.Proofs.Start

set_option autoImplicit false

/-! # Steps with a stand-in

A failure of a step that is optional, or has a fallback, is settled before recovery looks at its kind,
unless it is a kill: an optional step counts as done, and any other one is replaced by its fallback.
So the actions of such a step are started once (`Workflow.step_of_stand_in`), and recovery neither asks
nor turns to anything but the fallback, whose actions are carried out in order up to the first that does
not return (`Run.InOrder`). -/

namespace Reflash

open Run

variable {ε σ α : Type}

/-! ## One run after the other -/

namespace Run

/-- One run for each element, in order, up to the first that does not return. -/
inductive InOrder (f : α → Run ε σ Unit) (n : Nat) : List α → σ → Trail ε σ Unit → Prop
  | through {w : σ} : InOrder f n [] w ⟨.returned (), [], w⟩
  | next {x : α} {xs : List α} {w w' : σ} {es : List ε} {t : Trail ε σ Unit}
    (first : f x n w = ⟨.returned (), es, w'⟩) (rest : InOrder f n xs w' t) :
    InOrder f n (x :: xs) w (t.after es)
  | stopped {x : α} {xs : List α} {w : σ} {t : Trail ε σ Unit} (first : f x n w = t)
    (last : t.ending ≠ .returned ()) : InOrder f n (x :: xs) w t

theorem each_inOrder (f : α → Run ε σ Unit) (n : Nat) (xs : List α) (w : σ) :
    InOrder f n xs w (Run.each f xs n w) := by
  induction xs generalizing w with
  | nil => exact .through
  | cons x xs ih =>
    rw [Run.each]
    rcases hx : f x n w with ⟨_ | e | _, es, w'⟩
    · rw [bind_of_returned hx]
      exact .next hx (ih w')
    · rw [bind_apply, hx]
      exact .stopped hx (by simp)
    · rw [bind_apply, hx]
      exact .stopped hx (by simp)

end Run

/-! ## What recovery does about a step with a stand-in -/

namespace Event

/-- The event is one of the fallback of the step. -/
def OfFallback : Event → Prop
  | entered part | left part | within part _ => part = .fallback
  | _ => False

theorem recovery_counts (s : Signal) (k : Entry) : (recovery s).counts k = false := by
  cases k <;> rfl

theorem IsLine.counts {e : Event} (h : e.IsLine) (k : Entry) : e.counts k = false := by
  obtain ⟨line, rfl⟩ := h
  exact recovery_counts _ k

theorem OfFallback.counts {e : Event} (h : e.OfFallback) (k : Entry) : e.counts k = false := by
  cases e with
  | entered part | left part => cases h; cases k <;> rfl
  | within part e => cases h; cases k <;> rfl
  | _ => cases h

theorem started_counts (text : String) (k : Entry) :
    ((started text).counts k).toNat = if k = .start then 1 else 0 := by
  cases k <;> rfl

theorem failed_counts (id : String) (c : Fault) (k : Entry) : (failed id c).counts k = false := by
  cases k <;> rfl

end Event

namespace Recovery

variable (rules : Rules σ) {s : Step} {f : ActionFailure} {a : StepAttempt}

theorem handle_of_optional (kind : f.kind ≠ .killed) (optional : s.optional = true) :
    handle rules f s a = do
      Run.emit (.failed f.id f.cause)
      let resolution ← (do
        log .info ("Ignoring failure of optional step (" ++ f.id ++ "): " ++ f.cause.text)
        return .done : Flow σ Resolution)
      return (resolution, a) := by
  unfold handle
  simp [kind, optional]

theorem handle_of_fallback (kind : f.kind ≠ .killed) (optional : s.optional = false)
    (fallback : s.fallback ≠ []) :
    handle rules f s a = do
      Run.emit (.failed f.id f.cause)
      let resolution ← (do
        log .warning (f.id ++ " failed, running fallback: " ++ f.cause.text)
        Flow.inPart .fallback (rules.actions s.fallback)
        return .done : Flow σ Resolution)
      return (resolution, a) := by
  unfold handle
  simp [kind, optional, fallback]

end Recovery

namespace Workflow

open Recovery

variable {wf : Workflow σ} {runSteps : List Step → Flow σ Unit} {s : Step} {b : Nat}
  {w w₁ w₂ : σ} {text : String} {f : ActionFailure} {paused acts : List Event}

/-! ## Single starts -/

theorem concluded_done (text : String) (a : StepAttempt) (o : Ending α) (es : List Event) (w : σ) :
    concluded text a ⟨o.map fun _ => .done, es, w⟩ = ⟨o.map fun _ => .inr (), es, w⟩ := by
  cases o <;> rfl

/-- A step that is not to be started again ends as its first start does. -/
theorem step_of_start {o : Ending Unit} {es : List Event} {w' : σ}
    (h : wf.start runSteps s {} (b + 1) w = ⟨o.map fun _ => .inr (), es, w'⟩) :
    wf.step runSteps s (b + 1) w = ⟨o, es, w'⟩ := by
  show (wf.start runSteps s {} >>= _) (b + 1) w = _
  rw [bind_apply, h]
  cases o with
  | returned => simp [Ending.map, pure_apply]
  | raised | unfinished => rfl

theorem step_of_optional (h : wf.Fails runSteps s (b + 1) w text f paused acts w₁ w₂)
    (kind : f.kind ≠ .killed) (optional : s.optional = true) :
    wf.step runSteps s (b + 1) w = ⟨.returned (), paused ++ .started text :: (acts ++
      [.failed f.id f.cause, .line .info
        ("Ignoring failure of optional step (" ++ f.id ++ "): " ++ f.cause.text)]), w₂⟩ := by
  have hstart := start_of_failure h (handle_of_optional (wf.rules runSteps) (a := {}) kind optional)
  refine step_of_start (hstart.trans ?_)
  simp [Trail.after, log_bind, pure_apply, concluded, Ending.map]

theorem step_of_fallback (h : wf.Fails runSteps s (b + 1) w text f paused acts w₁ w₂)
    (kind : f.kind ≠ .killed) (optional : s.optional = false) (fallback : s.fallback ≠ []) :
    let t := Flow.actions runSteps wf.table wf.ctx s.fallback (b + 1) w₂
    wf.step runSteps s (b + 1) w = ⟨t.ending, paused ++ .started text :: (acts ++
      .failed f.id f.cause ::
        .line .warning (f.id ++ " failed, running fallback: " ++ f.cause.text) ::
          .entered .fallback ::
            (t.events.map (.within .fallback) ++ Flow.leaving .fallback t.ending)), t.world⟩ := by
  intro t
  have hstart := start_of_failure h
    (handle_of_fallback (wf.rules runSteps) (a := {}) kind optional fallback)
  refine step_of_start (hstart.trans ?_)
  rw [log_bind, bind_pure_apply, Flow.inPart_apply]
  simp only [Trail.after, concluded_done]
  simp [rules, t]

/-! ## The step as a whole -/

theorem Fails.counts (h : wf.Fails runSteps s b w text f paused acts w₁ w₂)
    {recovered : List Event} (hrecovered : ∀ e ∈ recovered, e.IsLine ∨ e.OfFallback) (k : Entry) :
    count k (paused ++ .started text :: (acts ++ .failed f.id f.cause :: recovered)) =
      if k = .start then 1 else 0 := by
  have hpaused : count k paused = 0 := by
    have hemits := Flow.ofRecovery_emits wf.ctx.host.pause b w
    rw [h.paused] at hemits
    refine count_eq_zero fun e he => ?_
    obtain ⟨signal, rfl⟩ := hemits e he
    exact Event.recovery_counts signal k
  have hacts : count k acts = 0 := by
    have hemits := Flow.actions_emits runSteps wf.table wf.ctx s.actions b w₁
    rw [h.failed] at hemits
    exact count_eq_zero fun e he => (hemits e he).counts k
  have hrest : count k recovered = 0 :=
    count_eq_zero fun e he => (hrecovered e he).elim (·.counts k) (·.counts k)
  rw [count_append, count_cons, count_append, count_cons, hpaused, hacts, hrest,
    Event.failed_counts, Event.started_counts]
  simp

/-- A step with a stand-in whose actions end with a failure, other than a kill, is started once. Nobody
is asked, and nothing is done about the failure by its kind: an optional step is through, and in place of
any other one its fallback is carried out, which ends the step as it ends itself. -/
theorem step_of_stand_in (h : wf.Fails runSteps s (b + 1) w text f paused acts w₁ w₂)
    (standIn : s.optional = true ∨ s.fallback ≠ []) (kind : f.kind ≠ .killed) :
    InOrder (Flow.action runSteps wf.table wf.ctx) (b + 1) s.actions w₁
      ⟨.raised (.inAction f.id f.cause), acts, w₂⟩ ∧
    ∃ recovered,
      (wf.step runSteps s (b + 1) w).events =
        paused ++ .started text :: (acts ++ .failed f.id f.cause :: recovered) ∧
      (∀ e ∈ recovered, e.IsLine ∨ e.OfFallback) ∧
      (∀ k, count k (wf.step runSteps s (b + 1) w).events = if k = .start then 1 else 0) ∧
      (s.optional = true → (∀ e ∈ recovered, e.IsLine) ∧
        (wf.step runSteps s (b + 1) w).ending = .returned () ∧
        (wf.step runSteps s (b + 1) w).world = w₂) ∧
      (s.optional = false → ∃ t,
        InOrder (Flow.action runSteps wf.table wf.ctx) (b + 1) s.fallback w₂ t ∧
        recovered = .line .warning (f.id ++ " failed, running fallback: " ++ f.cause.text) ::
          .entered .fallback ::
            (t.events.map (.within .fallback) ++ Flow.leaving .fallback t.ending) ∧
        (wf.step runSteps s (b + 1) w).ending = t.ending ∧
        (wf.step runSteps s (b + 1) w).world = t.world) := by
  refine ⟨h.failed ▸ each_inOrder _ _ _ _, ?_⟩
  cases optional : s.optional with
  | true =>
    have hlines (message : String) : ∀ e ∈ [Event.line .info message], e.IsLine :=
      List.forall_mem_singleton.mpr ⟨_, rfl⟩
    rw [step_of_optional h kind optional]
    exact ⟨_, rfl, fun e he => .inl (hlines _ e he), h.counts fun e he => .inl (hlines _ e he),
      fun _ => ⟨hlines _, rfl, rfl⟩, fun hfalse => by cases hfalse⟩
  | false =>
    have fallback : s.fallback ≠ [] := by simpa [optional] using standIn
    rw [step_of_fallback h kind optional fallback]
    -- However the fallback ends, the step ends so, and nothing but lines and its events is left.
    generalize ht : Flow.actions runSteps wf.table wf.ctx s.fallback (b + 1) w₂ = t
    have hrecovered (message : String) : ∀ e ∈ .line .warning message :: .entered .fallback ::
        (t.events.map (.within .fallback) ++ Flow.leaving .fallback t.ending),
        e.IsLine ∨ e.OfFallback := by
      intro e he
      simp only [List.mem_cons, List.mem_append, List.mem_map] at he
      rcases he with rfl | rfl | ⟨e', -, rfl⟩ | he
      · exact .inl ⟨_, rfl⟩
      · exact .inr rfl
      · exact .inr rfl
      · rw [Flow.eq_left_of_mem_leaving he]
        exact .inr rfl
    exact ⟨_, rfl, hrecovered _, h.counts (hrecovered _), Bool.noConfusion,
      fun _ => ⟨t, ht ▸ each_inOrder _ _ _ _, rfl, rfl, rfl⟩⟩

/-- A lost device is no reason to ask where a fallback takes over, and of that fallback the last action
is not reached. -/
theorem lost_step_falls_back :
    let wf : Workflow Nat := .plain {} [
      ("op", some fun _ _ => Run.raise (.failure .noDevice "gone")),
      ("instead", some fun _ _ => Run.world fun runs => (.null, runs + 1)),
      ("broken", some fun _ _ => Run.raise (.failure .generic "broken"))]
    let s : Step := {
      actions := [.named "t:instead", .named "t:op"]
      fallback := [.named "t:instead", .named "t:broken", .named "t:instead"]
      raw := [(.str "actions", .null)] }
    (∀ k, count k (wf.step wf.runSteps s 1 0).events = if k = .start then 1 else 0) ∧
    (wf.step wf.runSteps s 1 0).ending = .raised (.inAction "t:broken" (.failure .generic "broken")) ∧
    ∃ t, InOrder (Flow.action wf.runSteps wf.table wf.ctx) 1 s.fallback 1 t ∧
      t.ending = .raised (.inAction "t:broken" (.failure .generic "broken")) ∧ t.world = 2 := by
  intro wf s
  have hfails : wf.Fails wf.runSteps s 1 0 "\x7b\"actions\": null\x7d"
      ⟨"t:op", .failure .noDevice "gone"⟩ []
      [.dispatched "t" "instead" .null, .dispatched "t" "op" .null,
        .raised (.failure .noDevice "gone")] 0 1 :=
    ⟨rfl, rfl, by cbv, by cbv⟩
  have hending : (wf.step wf.runSteps s 1 0).ending =
      .raised (.inAction "t:broken" (.failure .generic "broken")) := by cbv
  have hworld : (wf.step wf.runSteps s 1 0).world = 2 := by cbv
  obtain ⟨-, recovered, -, -, hcount, -, hfallback⟩ :=
    step_of_stand_in hfails (.inr (by simp [s])) (by decide)
  obtain ⟨t, horder, -, hend, hw⟩ := hfallback rfl
  exact ⟨hcount, hending, t, horder, hend.symm.trans hending, hw.symm.trans hworld⟩

end Workflow

end Reflash
