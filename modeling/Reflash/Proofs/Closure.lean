import Reflash.Proofs.Escape

set_option autoImplicit false

/-! # How a run ends

A run that is ended on purpose returns `false`, and leaves the idle notice behind. It would do so
whatever happens, if every fault that leaves its steps were a termination. Two are not
(`run_raises_iff`): a failure that a handler reports with the kind `killed` is passed on as it was
raised, but is no `Fault.killed`, and a condition of the unlock step that cannot be evaluated. -/

namespace Reflash

open Run

variable {σ : Type}

/-- The notice that an event shows. -/
def Event.notice? (e : Event) : Option Notice :=
  match e.signal? with
  | some (.notified notice) => some notice
  | _ => none

/-- Events that let a fault out of a run as it is: it was raised by a kill, or it is what keeps the
unlock flow, which was entered, from being run. -/
def LetsOut (applies : Fallible Bool) (es : List Event) (c : Fault) : Prop :=
  (∃ e ∈ es, e.bareKill? = some c) ∨ (applies = .error c ∧ ∃ e ∈ es, e.entersUnlock)

theorem letsOut_append {applies : Fallible Bool} {es es' : List Event} {c : Fault}
    (h : ∀ e ∈ es', e.kill? = none ∧ e.entersUnlock = false) :
    LetsOut applies (es ++ es') c ↔ LetsOut applies es c := by
  have hbare : ∀ e ∈ es', e.bareKill? ≠ some c := by
    intro e he hb
    rw [Event.bareKill?_eq_none (h e he).1] at hb
    cases hb
  have hunlock : ∀ e ∈ es', ¬e.entersUnlock := by
    intro e he hu
    rw [(h e he).2] at hu
    cases hu
  constructor
  · rintro (⟨e, he, hb⟩ | ⟨hc, e, he, hu⟩)
    · rcases List.mem_append.mp he with he | he
      · exact .inl ⟨e, he, hb⟩
      · exact absurd hb (hbare e he)
    · rcases List.mem_append.mp he with he | he
      · exact .inr ⟨hc, e, he, hu⟩
      · exact absurd hu (hunlock e he)
  · rintro (⟨e, he, hb⟩ | ⟨hc, e, he, hu⟩)
    · exact .inl ⟨e, List.mem_append_left _ he, hb⟩
    · exact .inr ⟨hc, e, List.mem_append_left _ he, hu⟩

/-- What leaves steps is a termination, unless the events let it out as it is. -/
theorem raised_iff_letsOut {applies : Fallible Bool} {es : List Event} {o : Ending Unit}
    (hkills : KillsEnd Event.bareKill? es o) (hends : Ends applies Event.bareKill? es o) {c : Fault}
    (hc : c.isTermination = false) : o = .raised c ↔ LetsOut applies es c := by
  constructor
  · intro ho
    cases hends.reason c ho with
    | declined | failed => cases hc
    | killed _ h => exact .inl h
    | stuck _ happlies h => exact .inr ⟨happlies, h⟩
  · rintro (⟨e, he, hb⟩ | ⟨happlies, h⟩)
    · exact hkills.bare e he c hb
    · exact hends.stuck c happlies h

namespace Workflow

theorem endEvents_plain (c : Fault) :
    ∀ e ∈ endEvents c, e.kill? = none ∧ e.entersUnlock = false := by
  simp [endEvents, Event.kill?, Event.entersUnlock]

theorem settle_raises_iff {wf : Workflow σ} {flow : Flow σ Unit}
    (hkills : flow.Meets (KillsEnd Event.bareKill?))
    (hends : flow.Meets (Ends wf.unlockApplies Event.bareKill?)) :
    (wf.settle flow).Ensures fun es o =>
      ∀ c, o = .raised c ↔ c.isTermination = false ∧ LetsOut wf.unlockApplies es c := by
  -- A run that was not left by a fault has let out none.
  have passed {es : List Event} {o : Ending Unit} {o' : Ending Bool}
      (h : KillsEnd Event.bareKill? es o ∧ Ends wf.unlockApplies Event.bareKill? es o)
      (ho : ∀ c, c.isTermination = false → o ≠ .raised c) (ho' : ∀ c, o' ≠ .raised c) :
      ∀ c, o' = .raised c ↔ c.isTermination = false ∧ LetsOut wf.unlockApplies es c := by
    intro c
    refine ⟨fun h' => absurd h' (ho' c), fun ⟨hc, hout⟩ => ?_⟩
    exact absurd ((raised_iff_letsOut h.1 h.2 hc).mpr hout) (ho c hc)
  refine settle_ensures (Ensures.and hkills hends) (fun es h => passed h (by simp) (by simp))
    (fun es c hc h c' => ?_) (fun es c hc h c' => ?_) fun es h => passed h (by simp) (by simp)
  · -- The fault that ended the run is a termination, so it is none of those that are let out.
    rw [letsOut_append (endEvents_plain c)]
    refine passed h (fun c'' hc'' ho => ?_) (by simp) c'
    cases ho
    simp [hc] at hc''
  · constructor
    · intro ho
      cases ho
      exact ⟨hc, (raised_iff_letsOut h.1 h.2 hc).mp rfl⟩
    · rintro ⟨hc', hout⟩
      cases (raised_iff_letsOut h.1 h.2 hc').mpr hout
      rfl

theorem settle_idle (wf : Workflow σ) (flow : Flow σ Unit) :
    (wf.settle flow).Ensures fun es o =>
      o = .returned false → (es.filterMap Event.notice?).getLast? = some .idle := by
  refine settle_ensures (P := fun _ _ => True) (fun _ _ => trivial) (fun es _ h => by cases h)
    (fun es c _ _ _ => ?_) (fun es c _ _ h => by cases h) fun es _ h => by cases h
  have hidle : (endEvents c).filterMap Event.notice? = [.idle] := rfl
  rw [List.filterMap_append, hidle]
  exact List.getLast?_concat

/-- A run of steps that can be run ends with a value, but for two kinds of faults: one of the kind
`killed` that is no termination itself, wherever it is let out as it was raised, and what keeps the
condition of the unlock step from being evaluated. A run that was ended early leaves the idle notice
as its last one. -/
theorem run_raises_iff {wf : Workflow σ} (hwf : wf.Orderly) {steps : List Step}
    (hsteps : ∀ s ∈ steps, s.Ready) (n : Nat) (w : σ) :
    (∀ c, (wf.run steps n w).ending = .raised c ↔
      c.isTermination = false ∧
        ((∃ e ∈ (wf.run steps n w).events, e.bareKill? = some c) ∨
          (wf.unlockApplies = .error c ∧ ∃ e ∈ (wf.run steps n w).events, e.entersUnlock))) ∧
    ((wf.run steps n w).ending = .returned false →
      ((wf.run steps n w).events.filterMap Event.notice?).getLast? = some .idle) := by
  have hends : (wf.runSteps steps).Meets (Ends wf.unlockApplies Event.bareKill?) :=
    Ensures.withBudget fun depth => runStepsTo_ends hwf depth hsteps
  exact ⟨settle_raises_iff (runSteps_kills wf steps) hends n w, settle_idle wf _ n w⟩

/-- A run that the user declines to continue ends with `false`. -/
theorem declined_run_returns :
    let wf : Workflow Unit :=
      .plain ⟨.abort, .null⟩ [("op", some fun _ _ => Run.raise (.failure .noDevice "gone"))]
    let step : Step := { actions := [.named "t:op"] }
    (∀ c, (wf.run [step] 1 ()).ending ≠ .raised c) ∧
    ((wf.run [step] 1 ()).events.filterMap Event.notice?).getLast? = some .idle := by
  intro wf step
  have horderly : wf.Orderly := by
    refine Orderly.plain fun entry hentry handler hhandler => ?_
    cases List.mem_singleton.mp hentry
    cases hhandler
    exact ⟨_, rfl, rfl⟩
  have hready : ∀ s ∈ [step], s.Ready := by
    intro s hs
    cases List.mem_singleton.mp hs
    exact Step.Ready.unconditional rfl (by cbv : step.describe = .ok _) (by cbv)
  have hreturned : (wf.run [step] 1 ()).ending = .returned false := by cbv
  obtain ⟨-, hidle⟩ := run_raises_iff horderly hready 1 ()
  refine ⟨fun c hc => ?_, hidle hreturned⟩
  rw [hreturned] at hc
  cases hc

/-- A failure that is reported with the kind `killed` leaves a run. -/
theorem killed_failure_leaves_run :
    let wf : Workflow Unit :=
      .plain {} [("op", some fun _ _ => Run.raise (.failure .killed "boom"))]
    let step : Step := { actions := [.named "t:op"] }
    wf.Orderly ∧ step.Ready ∧ (wf.run [step] 1 ()).ending = .raised (.failure .killed "boom") := by
  intro wf step
  refine ⟨?_, Step.Ready.unconditional rfl (by cbv : step.describe = .ok _) (by cbv), by cbv⟩
  refine Orderly.plain fun entry hentry handler hhandler => ?_
  cases List.mem_singleton.mp hentry
  cases hhandler
  exact ⟨_, rfl, rfl⟩

end Workflow

end Reflash
