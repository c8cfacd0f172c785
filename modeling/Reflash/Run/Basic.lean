import Reflash.Fault

set_option autoImplicit false

/-! # Runs

What the program does to the outside is written as runs: functions of the state `σ` of the outside
world, which leave the events that happened on the way, in order, and the state in which they end.
Nothing is said about `σ`, so a statement about all worlds is a statement about everything that
shells, tools and files can do.

Some loops end only when the world lets them. They take a budget, the number of rounds that they
may make, and a run whose budget is spent ends `unfinished`, which is neither a value nor a fault:
it is what has been seen of the run so far. -/

namespace Reflash

/-- How a run ended. -/
inductive Ending (α : Type) where
  | returned (value : α)
  | raised (fault : Fault)
  | unfinished
deriving Inhabited

/-- A run that was made: how it ended, what happened, and the state of the world at its end. -/
structure Trail (ε σ α : Type) where
  ending : Ending α
  events : List ε
  world : σ

/-- A run with events in `ε` in a world with states in `σ`, given the budget of its loops. -/
def Run (ε σ α : Type) : Type := Nat → σ → Trail ε σ α

namespace Run

variable {ε ε' σ α β : Type}

/-- The run that does nothing. -/
protected def pure (a : α) : Run ε σ α :=
  fun _ w => ⟨.returned a, [], w⟩

/-- One run after another, which gets what the first one returned. -/
protected def bind (r : Run ε σ α) (next : α → Run ε σ β) : Run ε σ β :=
  fun n w =>
    match r n w with
    | ⟨.returned a, before, w⟩ =>
      let rest := next a n w
      ⟨rest.ending, before ++ rest.events, rest.world⟩
    | ⟨.raised e, before, w⟩ => ⟨.raised e, before, w⟩
    | ⟨.unfinished, before, w⟩ => ⟨.unfinished, before, w⟩

instance : Monad (Run ε σ) where
  pure := Run.pure
  bind := Run.bind

instance : Inhabited (Run ε σ α) := ⟨fun _ w => ⟨.unfinished, [], w⟩⟩

/-- The run that fails. -/
def raise (e : Fault) : Run ε σ α :=
  fun _ w => ⟨.raised e, [], w⟩

/-- The run that is not finished. -/
def unfinished : Run ε σ α :=
  fun _ w => ⟨.unfinished, [], w⟩

/-- Lets one event happen. -/
def emit (event : ε) : Run ε σ Unit :=
  fun _ w => ⟨.returned (), [event], w⟩

/-- The result of a computation that needs no world. -/
def ofFallible : Fallible α → Run ε σ α
  | .ok a => Run.pure a
  | .error e => raise e

instance : MonadLift Fallible (Run ε σ) := ⟨ofFallible⟩

/-- A run that gets what the world holds and says how it changes. -/
def world (f : σ → α × σ) : Run ε σ α :=
  fun _ w => let (a, w) := f w; ⟨.returned a, [], w⟩

/-- A run that knows the budget of its loops. -/
def withBudget (f : Nat → Run ε σ α) : Run ε σ α :=
  fun n w => f n n w

/-- Goes on with `handler` where the run fails. -/
def rescue (r : Run ε σ α) (handler : Fault → Run ε σ α) : Run ε σ α :=
  fun n w =>
    match r n w with
    | ⟨.raised e, before, w⟩ =>
      let rest := handler e n w
      ⟨rest.ending, before ++ rest.events, rest.world⟩
    | trail => trail

/-- The run with its failure, if any, as a value. -/
def attempt (r : Run ε σ α) : Run ε σ (Fallible α) :=
  fun n w =>
    match r n w with
    | ⟨.returned a, events, w⟩ => ⟨.returned (.ok a), events, w⟩
    | ⟨.raised e, events, w⟩ => ⟨.returned (.error e), events, w⟩
    | ⟨.unfinished, events, w⟩ => ⟨.unfinished, events, w⟩

/-- The run with its events renamed. -/
def mapEvents (f : ε → ε') (r : Run ε σ α) : Run ε' σ α :=
  fun n w => let t := r n w; ⟨t.ending, t.events.map f, t.world⟩

/-- The run with those of its events that have a name in `ε'`. -/
def filterEvents (f : ε → Option ε') (r : Run ε σ α) : Run ε' σ α :=
  fun n w => let t := r n w; ⟨t.ending, t.events.filterMap f, t.world⟩

/-- Repeats a round as long as it says how to go on, at most as often as the budget allows. -/
def repeatFor (round : β → Run ε σ (β ⊕ α)) : Nat → β → Run ε σ α
  | 0, _ => unfinished
  | n + 1, b => do
    match ← round b with
    | .inl b => repeatFor round n b
    | .inr a => return a

/-- Repeats a round as long as it says how to go on. -/
def repeatFrom (round : β → Run ε σ (β ⊕ α)) (b : β) : Run ε σ α :=
  withBudget fun n => repeatFor round n b

/-- Does one run for each element of a list, in order. -/
def each (f : α → Run ε σ Unit) : List α → Run ε σ Unit
  | [] => Run.pure ()
  | x :: xs => f x >>= fun _ => each f xs

end Run

end Reflash
