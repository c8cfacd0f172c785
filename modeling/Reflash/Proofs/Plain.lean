import Reflash.Proofs.Flow

set_option autoImplicit false

/-! # Actions without further steps

Most handlers return no steps. An action with such a handler ends as the handler does, but that a
failure becomes the failure of the action (`Flow.action_plain`). -/

namespace Reflash

open Run

variable {σ : Type}

namespace Flow

/-- How an action ends whose handler needs no further steps. -/
def plainEnding (id : String) : Ending Value → Ending Unit
  | .returned _ => .returned ()
  | .raised e => .raised (asFailureOf id e)
  | .unfinished => .unfinished

theorem plainEnding_eq_returned {id : String} {o : Ending Value}
    (h : plainEnding id o = .returned ()) : ∃ v, o = .returned v := by
  cases o with
  | returned v => exact ⟨v, rfl⟩
  | raised e => cases h
  | unfinished => cases h

section

variable {a : Action} {d : Dispatch} (hd : a.dispatch = .ok d) {table : ActionTable σ}
  {handler : Handler σ} (hhandler : table.handler? d.id = some handler)
  (runSteps : List Step → Flow σ Unit) {ctx : Context σ} {n : Nat} {w w' : σ} {signals : List Signal}
include hd hhandler

theorem action_of_null (hrun : handler d.payload ctx n w = ⟨.returned .null, signals, w'⟩) :
    action runSteps table ctx a n w = ⟨.returned (), called d signals, w'⟩ := by
  have hcall : callHandler table ctx d n w = ⟨.returned [], called d signals, w'⟩ := by
    rw [callHandler_apply hhandler, hrun]
    simp [substepsOf, Value.truth, Run.ofFallible, Run.pure, Trail.after]
  rw [action_eq hd, bind_of_returned (rescue_of_returned hcall _)]
  simp [pure_apply, Trail.after]

/-- What a handler raises is recorded before the action fails. -/
theorem action_of_raised {e : Fault}
    (hrun : handler d.payload ctx n w = ⟨.raised e, signals, w'⟩) :
    action runSteps table ctx a n w =
      ⟨.raised (asFailureOf d.id e), called d signals ++ [.raised e], w'⟩ := by
  rw [action_eq hd, bind_apply, Run.rescue, callHandler_apply hhandler, hrun]
  simp [Run.raise]

theorem action_of_unfinished
    (hrun : handler d.payload ctx n w = ⟨.unfinished, signals, w'⟩) :
    action runSteps table ctx a n w = ⟨.unfinished, called d signals, w'⟩ := by
  rw [action_eq hd, bind_apply, Run.rescue, callHandler_apply hhandler, hrun]

end

/-- An action whose handler needs no further steps does what the handler does. -/
theorem action_plain {a : Action} {d : Dispatch} (hd : a.dispatch = .ok d)
    {table : ActionTable σ} {handler : Handler σ} (hhandler : table.handler? d.id = some handler)
    (runSteps : List Step → Flow σ Unit) (ctx : Context σ) (n : Nat) (w : σ)
    (hnull : ∀ v, (handler d.payload ctx n w).ending = .returned v → v = .null) :
    (action runSteps table ctx a n w).ending =
        plainEnding d.id (handler d.payload ctx n w).ending ∧
      (action runSteps table ctx a n w).world = (handler d.payload ctx n w).world := by
  rcases hrun : handler d.payload ctx n w with ⟨v | e | _, signals, w'⟩
  · rw [hrun] at hnull
    obtain rfl := hnull v rfl
    rw [action_of_null hd hhandler runSteps hrun]
    exact ⟨rfl, rfl⟩
  · rw [action_of_raised hd hhandler runSteps hrun]
    exact ⟨rfl, rfl⟩
  · rw [action_of_unfinished hd hhandler runSteps hrun]
    exact ⟨rfl, rfl⟩

end Flow

end Reflash
