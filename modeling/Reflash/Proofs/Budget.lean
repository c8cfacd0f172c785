import Reflash.Proofs.Congruence

set_option autoImplicit false

/-! # What more budget changes

The budget of a run bounds the rounds of its loops and the depth of its steps, and is no part of what
is run. A run with more of it goes on where the same run with less stopped, and does not change where
it came to its end (`Run.Steady`). So what is seen of a run under any budget is a first part of one
sequence of events, and its ending, once there is one, is the ending under every larger budget.

This holds of a workflow if it holds of what its handlers and its host do (`Workflow.Steady`,
`runStepsTo_grows`). It is shown for two runs at two budgets (`Run.Grows`), so that the steps below a
step may be run to different depths (`runSteps_grows`). -/

namespace Reflash

open Run

variable {ε ε' σ α β : Type}

/-! ## Trails so far -/

/-- What is seen of a trail before its end: all of it, or a first part of its events without an
ending. -/
def Trail.Precedes (t t' : Trail ε σ α) : Prop :=
  t = t' ∨ (t.ending = .unfinished ∧ t.events <+: t'.events)

namespace Trail.Precedes

variable {t t' : Trail ε σ α}

theorem refl (t : Trail ε σ α) : t.Precedes t :=
  .inl rfl

theorem events_prefix (h : t.Precedes t') : t.events <+: t'.events := by
  rcases h with rfl | ⟨_, h⟩
  · exact List.prefix_refl _
  · exact h

/-- A trail that has come to its end is the whole. -/
theorem eq_of_finished (h : t.Precedes t') (ht : t.ending ≠ .unfinished) : t = t' := by
  rcases h with h | ⟨hu, _⟩
  · exact h
  · exact absurd hu ht

/-- Both go on after the same events. -/
theorem prepend (es : List ε) (h : t.Precedes t') :
    Trail.Precedes ⟨t.ending, es ++ t.events, t.world⟩ ⟨t'.ending, es ++ t'.events, t'.world⟩ := by
  rcases h with rfl | ⟨hu, hes⟩
  · exact .refl _
  · exact .inr ⟨hu, (List.prefix_append_right_inj es).mpr hes⟩

end Trail.Precedes

namespace Run

/-- With the budget `m` the second run goes on where the first one stopped with the budget `n`. -/
def Grows (n m : Nat) (r r' : Run ε σ α) : Prop :=
  ∀ w, (r n w).Precedes (r' m w)

/-- More budget lets the run go on where it stopped. -/
def Steady (r : Run ε σ α) : Prop :=
  ∀ n m, n ≤ m → r.Grows n m r

theorem events_prefix_bind (r : Run ε σ α) (next : α → Run ε σ β) (n : Nat) (w : σ) :
    (r n w).events <+: ((r >>= next) n w).events := by
  rw [bind_apply]
  rcases r n w with ⟨_ | _ | _, es, w'⟩
  · exact List.prefix_append _ _
  all_goals exact List.prefix_refl _

theorem events_prefix_rescue (r : Run ε σ α) (handler : Fault → Run ε σ α) (n : Nat) (w : σ) :
    (r n w).events <+: (r.rescue handler n w).events := by
  unfold Run.rescue
  rcases r n w with ⟨_ | _ | _, es, w'⟩
  · exact List.prefix_refl _
  · exact List.prefix_append _ _
  · exact List.prefix_refl _

theorem events_attempt (r : Run ε σ α) (n : Nat) (w : σ) :
    (r.attempt n w).events = (r n w).events := by
  unfold Run.attempt
  rcases r n w with ⟨_ | _ | _, es, w'⟩ <;> rfl

namespace Grows

variable {n m : Nat}

/-- A run that does not look at its budget. -/
theorem of_const {r : Run ε σ α} (h : ∀ w, r n w = r m w) : r.Grows n m r :=
  fun w => .inl (h w)

theorem pure (a : α) : (Pure.pure a : Run ε σ α).Grows n m (Pure.pure a) :=
  of_const fun _ => rfl

theorem raise (e : Fault) : (Run.raise e : Run ε σ α).Grows n m (Run.raise e) :=
  of_const fun _ => rfl

theorem emit (event : ε) : (Run.emit event : Run ε σ Unit).Grows n m (Run.emit event) :=
  of_const fun _ => rfl

theorem world (f : σ → α × σ) : (Run.world f : Run ε σ α).Grows n m (Run.world f) :=
  of_const fun _ => rfl

theorem ofFallible (x : Fallible α) :
    (Run.ofFallible x : Run ε σ α).Grows n m (Run.ofFallible x) := by
  cases x <;> exact of_const fun _ => rfl

/-- A run that is not finished is the beginning of any run. -/
theorem unfinished (r : Run ε σ α) : (Run.unfinished : Run ε σ α).Grows n m r :=
  fun _ => .inr ⟨rfl, List.nil_prefix⟩

theorem bind {r r' : Run ε σ α} {next next' : α → Run ε σ β} (hr : r.Grows n m r')
    (hnext : ∀ a, (next a).Grows n m (next' a)) : (r >>= next).Grows n m (r' >>= next') := by
  intro w
  have hevents := events_prefix_bind r' next' m w
  have h := hr w
  rw [bind_apply]
  rcases hrun : r n w with ⟨a | e | _, es, w'⟩
  · rw [hrun] at h
    rw [bind_apply, ← h.eq_of_finished (by simp)]
    exact (hnext a w').prepend es
  · rw [hrun] at h
    rw [bind_apply, ← h.eq_of_finished (by simp)]
    exact .refl _
  · rw [hrun] at h
    exact .inr ⟨rfl, h.events_prefix.trans hevents⟩

theorem rescue {r r' : Run ε σ α} {handler handler' : Fault → Run ε σ α} (hr : r.Grows n m r')
    (hh : ∀ e, (handler e).Grows n m (handler' e)) :
    (r.rescue handler).Grows n m (r'.rescue handler') := by
  intro w
  have hevents := events_prefix_rescue r' handler' m w
  have h := hr w
  unfold Run.rescue at hevents ⊢
  rcases hrun : r n w with ⟨a | e | _, es, w'⟩
  · rw [hrun] at h
    rw [← h.eq_of_finished (by simp)]
    exact .refl _
  · rw [hrun] at h
    rw [← h.eq_of_finished (by simp)]
    exact (hh e w').prepend es
  · rw [hrun] at h
    exact .inr ⟨rfl, h.events_prefix.trans hevents⟩

theorem attempt {r r' : Run ε σ α} (hr : r.Grows n m r') :
    r.attempt.Grows n m r'.attempt := by
  intro w
  rcases hr w with h | ⟨hu, hes⟩
  · unfold Run.attempt
    rw [h]
    exact .refl _
  · refine .inr ⟨?_, ?_⟩
    · unfold Run.attempt
      rcases hrun : r n w with ⟨_ | _ | _, es, w'⟩
      · rw [hrun] at hu
        cases hu
      · rw [hrun] at hu
        cases hu
      · rfl
    · rwa [events_attempt, events_attempt]

theorem mapEvents {r r' : Run ε σ α} (f : ε → ε') (hr : r.Grows n m r') :
    (r.mapEvents f).Grows n m (r'.mapEvents f) := by
  intro w
  rcases hr w with h | ⟨hu, hes⟩
  · unfold Run.mapEvents
    rw [h]
    exact .refl _
  · exact .inr ⟨hu, hes.map f⟩

theorem ite {c : Prop} [Decidable c] {r s r' s' : Run ε σ α} (hr : c → r.Grows n m r')
    (hs : ¬c → s.Grows n m s') : (if c then r else s).Grows n m (if c then r' else s') := by
  split
  · next h => exact hr h
  · next h => exact hs h

theorem each {f f' : α → Run ε σ Unit} {xs : List α} (hf : ∀ x ∈ xs, (f x).Grows n m (f' x)) :
    (Run.each f xs).Grows n m (Run.each f' xs) := by
  induction xs with
  | nil => exact pure ()
  | cons x xs ih => exact bind (hf x (by simp)) fun _ => ih fun y hy => hf y (by simp [hy])

theorem repeatFor {round round' : β → Run ε σ (β ⊕ α)}
    (h : ∀ b, (round b).Grows n m (round' b)) {i j : Nat} (hij : i ≤ j) (b : β) :
    (Run.repeatFor round i b).Grows n m (Run.repeatFor round' j b) := by
  induction i generalizing j b with
  | zero => exact unfinished _
  | succ i ih =>
    obtain ⟨j, rfl⟩ : ∃ k, j = k + 1 := ⟨j - 1, by omega⟩
    refine bind (h b) fun next => ?_
    cases next with
    | inl b => exact ih (by omega) b
    | inr a => exact pure a

theorem repeatFrom (hnm : n ≤ m) {round round' : β → Run ε σ (β ⊕ α)}
    (h : ∀ b, (round b).Grows n m (round' b)) (b : β) :
    (Run.repeatFrom round b).Grows n m (Run.repeatFrom round' b) :=
  fun w => repeatFor h hnm b w

end Grows

namespace Steady

variable {r : Run ε σ α}

/-- What is seen of a steady run with some budget is the beginning of what is seen of it with a
budget with which it comes to its end. -/
theorem precedes (hr : r.Steady) {n : Nat} {w : σ} (hn : (r n w).ending ≠ .unfinished) (m : Nat) :
    (r m w).Precedes (r n w) := by
  rcases Nat.le_total m n with h | h
  · exact hr m n h w
  · exact .inl ((hr n m h w).eq_of_finished hn).symm

/-- A steady run has come to its end for good. -/
theorem eq_of_finished (hr : r.Steady) {n m : Nat} {w : σ} (hn : (r n w).ending ≠ .unfinished)
    (h : n ≤ m) : r m w = r n w :=
  ((hr n m h w).eq_of_finished hn).symm

end Steady

end Run

/-! ## Workflows -/

namespace Workflow

/-- What handlers and the host of a workflow do does not depend on the budget but for how far it
gets. -/
structure Steady (wf : Workflow σ) : Prop where
  handles : ∀ id handler payload, wf.table.handler? id = some handler →
    (handler payload wf.ctx).Steady
  pauses : wf.ctx.host.pause.Steady
  decides : ∀ request, (wf.ctx.host.decide request).Steady

end Workflow

variable {wf : Workflow σ} {runSteps runSteps' : List Step → Flow σ Unit} {n m : Nat}

theorem Host.ask_grows {host : Host σ} {n m : Nat}
    (hdecide : ∀ request, (host.decide request).Grows n m (host.decide request)) (prompt : Prompt)
    (data : Value) (action : Option String) (step : Option Entries) (cause : Option String) :
    (host.ask prompt data action step cause).Grows n m
      (host.ask prompt data action step cause) := by
  refine .bind (.ofFallible _) fun entries => .bind (.emit _) fun _ => .bind (.emit _) fun _ => ?_
  refine .bind (.rescue (hdecide _) fun e => ?_) fun decision => .bind (.emit _) fun _ => .pure _
  split <;> exact .raise _

/-- Going on with more budget is kept by what flows are put together of. -/
theorem Flow.grows_congruence (hnm : n ≤ m) :
    Flow.Congruence fun {_ : Type} (flow flow' : Flow σ _) => flow.Grows n m flow' where
  pure a := .pure a
  raise e := .raise e
  unfinished := .unfinished _
  emit e := .emit e
  bind h hnext := .bind h hnext
  rescue h hhandler := .rescue h hhandler
  attempt h := .attempt h
  inside _ h := .mapEvents _ h
  repeatFrom h b := .repeatFrom hnm h b

/-- What handlers and host of a steady workflow do goes on with more budget. -/
theorem Workflow.Steady.respects (hwf : wf.Steady) (hnm : n ≤ m) :
    wf.Respects fun {_ : Type} (flow flow' : Flow σ _) => flow.Grows n m flow' where
  handles id handler payload h := .mapEvents _ (hwf.handles id handler payload h n m hnm)
  pauses := .mapEvents _ (hwf.pauses n m hnm)
  asks prompt data action step cause :=
    .mapEvents _ (Host.ask_grows (fun request => hwf.decides request n m hnm) prompt data action
      step cause)

namespace Workflow

theorem settle_grows {flow flow' : Flow σ Unit} (h : flow.Grows n m flow') :
    (wf.settle flow).Grows n m (wf.settle flow') :=
  .rescue (.bind h fun _ => .pure _) fun _ =>
    .ite (fun _ => .mapEvents _ (.of_const fun _ => rfl)) fun _ => .raise _

variable (hwf : wf.Steady)
include hwf

theorem step_grows (hnm : n ≤ m) (hsteps : ∀ ss, (runSteps ss).Grows n m (runSteps' ss))
    (s : Step) : (wf.step runSteps s).Grows n m (wf.step runSteps' s) :=
  (hwf.respects hnm).step (Flow.grows_congruence hnm) hsteps s

/-- More depth lets steps go on as more rounds do. -/
theorem runStepsTo_grows (hnm : n ≤ m) {depth depth' : Nat} (h : depth ≤ depth')
    (ss : List Step) : (wf.runStepsTo depth ss).Grows n m (wf.runStepsTo depth' ss) := by
  induction depth generalizing depth' ss with
  | zero => exact .unfinished _
  | succ depth ih =>
    obtain ⟨k, rfl⟩ : ∃ k, depth' = k + 1 := ⟨depth' - 1, by omega⟩
    exact .each fun s _ => step_grows hwf hnm (fun ss => ih (by omega) ss) s

/-- Steps whose substeps are run as deep as the budget says. -/
theorem runSteps_grows (n : Nat) (ss : List Step) :
    Grows n (n + 1) (Run.each (wf.step wf.runSteps) ss) (wf.runSteps ss) := by
  have hdepth (ss : List Step) : (wf.runSteps ss).Grows n (n + 1) (wf.runStepsTo n ss) :=
    fun w => runStepsTo_grows hwf (Nat.le_succ n) (Nat.le_refl n) ss w
  exact fun w => Grows.each (fun s _ => step_grows hwf (Nat.le_succ n) hdepth s) w

theorem runSteps_steady (ss : List Step) : (wf.runSteps ss).Steady :=
  fun _ _ h w => runStepsTo_grows hwf h h ss w

/-- A run with more budget goes on where it stopped with less. -/
theorem run_steady (ss : List Step) : (wf.run ss).Steady :=
  fun _ _ h => settle_grows (runSteps_steady hwf ss _ _ h)

end Workflow

end Reflash
