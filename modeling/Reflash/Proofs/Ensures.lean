import Reflash.Run.Basic

set_option autoImplicit false

/-! # What runs ensure

A postcondition of a run speaks about the events that the run leaves and about how it ends, for
every budget and every world (`Run.Ensures`). There is one rule for each way of putting runs
together, so a postcondition of a run is shown along its definition.

Two kinds of postcondition need no more than that of the parts: those that hold of every single
event (`Run.Emits`), and those that a run which goes on with another one keeps (`Composes`). -/

namespace Reflash

variable {ε ε' σ α β : Type}

/-- A computation that goes on with another one has a result after both have. -/
theorem Fallible.bind_eq_ok {x : Fallible α} {next : α → Fallible β} {b : β}
    (h : (x >>= next) = .ok b) : ∃ a, x = .ok a ∧ next a = .ok b := by
  cases x with
  | ok a => exact ⟨a, rfl, h⟩
  | error e => cases h

/-- How a run ended, whatever it returned. -/
def Ending.forget : Ending α → Ending Unit
  | .returned _ => .returned ()
  | .raised e => .raised e
  | .unfinished => .unfinished

theorem Ending.forget_unit (o : Ending Unit) : o.forget = o := by
  cases o <;> rfl

@[simp] theorem Ending.forget_returned (a : α) : (Ending.returned a).forget = .returned () := rfl

@[simp] theorem Ending.forget_raised (e : Fault) :
    (Ending.raised e : Ending α).forget = .raised e := rfl

@[simp] theorem Ending.forget_unfinished : (Ending.unfinished : Ending α).forget = .unfinished :=
  rfl

theorem Ending.forget_eq_raised {o : Ending α} {e : Fault} (h : o.forget = .raised e) :
    o = .raised e := by
  cases o with
  | returned a => cases h
  | raised e' => cases h; rfl
  | unfinished => cases h

/-- How a run ended, with another value. -/
def Ending.map (g : α → β) : Ending α → Ending β
  | .returned a => .returned (g a)
  | .raised e => .raised e
  | .unfinished => .unfinished

/-- A trail with what happened before it. -/
def Trail.after (t : Trail ε σ α) (before : List ε) : Trail ε σ α :=
  { t with events := before ++ t.events }

@[simp] theorem Trail.after_ending (t : Trail ε σ α) (before : List ε) :
    (t.after before).ending = t.ending := rfl

@[simp] theorem Trail.after_events (t : Trail ε σ α) (before : List ε) :
    (t.after before).events = before ++ t.events := rfl

@[simp] theorem Trail.after_world (t : Trail ε σ α) (before : List ε) :
    (t.after before).world = t.world := rfl

theorem Trail.after_after (t : Trail ε σ α) (before before' : List ε) :
    (t.after before).after before' = t.after (before' ++ before) :=
  congrArg (Trail.mk t.ending · t.world) (List.append_assoc before' before t.events).symm

namespace Run

/-! ## Runs in sequence -/

theorem bind_apply (r : Run ε σ α) (next : α → Run ε σ β) (n : Nat) (w : σ) :
    (r >>= next) n w =
      match r n w with
      | ⟨.returned a, es, w⟩ =>
        ⟨(next a n w).ending, es ++ (next a n w).events, (next a n w).world⟩
      | ⟨.raised e, es, w⟩ => ⟨.raised e, es, w⟩
      | ⟨.unfinished, es, w⟩ => ⟨.unfinished, es, w⟩ := rfl

section

variable {r : Run ε σ α} {n : Nat} {w w' : σ} {es : List ε}

theorem bind_of_returned {a : α} (h : r n w = ⟨.returned a, es, w'⟩) (next : α → Run ε σ β) :
    (r >>= next) n w = (next a n w').after es := by
  rw [bind_apply, h]
  rfl

theorem rescue_of_returned {a : α} (h : r n w = ⟨.returned a, es, w'⟩)
    (handler : Fault → Run ε σ α) : r.rescue handler n w = ⟨.returned a, es, w'⟩ := by
  rw [rescue, h]

theorem pure_apply (a : α) : (Pure.pure a : Run ε σ α) n w = ⟨.returned a, [], w⟩ := rfl

theorem raise_apply (e : Fault) : (raise e : Run ε σ α) n w = ⟨.raised e, [], w⟩ := rfl

theorem bind_pure_apply (r : Run ε σ α) (g : α → β) (n : Nat) (w : σ) :
    (r >>= fun a => Pure.pure (g a)) n w =
      ⟨(r n w).ending.map g, (r n w).events, (r n w).world⟩ := by
  rw [bind_apply]
  rcases r n w with ⟨a | e | _, es, w'⟩
  · exact congrArg (Trail.mk _ · _) (List.append_nil es)
  all_goals rfl

theorem raise_bind (e : Fault) (next : α → Run ε σ β) : raise e >>= next = raise e := rfl

theorem returns_or_stops (r : Run ε σ α) (n : Nat) (w : σ) :
    (∃ a es w', r n w = ⟨.returned a, es, w'⟩) ∨ (r n w).ending.forget ≠ .returned () := by
  rcases r n w with ⟨a | e | _, es, w'⟩
  · exact .inl ⟨a, es, w', rfl⟩
  · exact .inr (by simp)
  · exact .inr (by simp)

/-- A run that does not return ends whatever would go on with it. -/
theorem bind_of_stopped (h : (r n w).ending.forget ≠ .returned ()) (next : α → Run ε σ β) :
    ∃ o : Ending β, o.forget = (r n w).ending.forget ∧
      (r >>= next) n w = ⟨o, (r n w).events, (r n w).world⟩ := by
  rw [bind_apply]
  rcases hr : r n w with ⟨a | e | _, es, w'⟩
  · rw [hr] at h
    exact absurd rfl h
  · exact ⟨.raised e, rfl, rfl⟩
  · exact ⟨.unfinished, rfl, rfl⟩

end

protected theorem bind_assoc {γ : Type} (r : Run ε σ α) (f : α → Run ε σ β) (g : β → Run ε σ γ) :
    r >>= f >>= g = r >>= fun a => f a >>= g := by
  funext n w
  simp only [bind_apply]
  rcases r n w with ⟨a | _ | _, es, w'⟩
  · dsimp only
    rcases f a n w' with ⟨_ | _ | _, es', w''⟩
    · exact congrArg (Trail.mk _ · _) (List.append_assoc ..)
    all_goals rfl
  all_goals rfl

protected theorem bind_pure (r : Run ε σ α) : (r >>= fun a => Pure.pure a) = r := by
  funext n w
  rw [bind_apply]
  rcases r n w with ⟨_ | _ | _, es, w'⟩
  · exact congrArg (Trail.mk _ · _) (List.append_nil es)
  all_goals rfl

instance : LawfulMonad (Run ε σ) := LawfulMonad.mk' _ Run.bind_pure (fun _ _ => rfl) Run.bind_assoc

theorem ofFallible_ok_bind (a : α) (next : α → Run ε σ β) :
    ((liftM (Except.ok a : Fallible α) : Run ε σ α) >>= next) = next a := rfl

theorem each_append (f : α → Run ε σ Unit) (xs ys : List α) :
    Run.each f (xs ++ ys) = Run.each f xs >>= fun _ => Run.each f ys := by
  induction xs with
  | nil => rfl
  | cons x xs ih =>
    simp only [List.cons_append, Run.each]
    rw [ih, bind_assoc]

/-- An event of runs in sequence happens in one of them, when those before it are through. -/
theorem each_events_split {f : α → Run ε σ Unit} {xs : List α} {n : Nat} {w : σ}
    {before after : List ε} {e : ε} (h : (Run.each f xs n w).events = before ++ e :: after) :
    ∃ xs₁ x xs₂ w₁ prior own rest, xs = xs₁ ++ x :: xs₂ ∧ before = prior ++ own ∧
      Run.each f xs₁ n w = ⟨.returned (), prior, w₁⟩ ∧ (f x n w₁).events = own ++ e :: rest := by
  induction xs generalizing w before with
  | nil => cases before <;> cases h
  | cons x xs ih =>
    have hfirst {rest : List ε} (hx : (f x n w).events = before ++ e :: rest) :
        ∃ xs₁ x' xs₂ w₁ prior own rest, x :: xs = xs₁ ++ x' :: xs₂ ∧ before = prior ++ own ∧
          Run.each f xs₁ n w = ⟨.returned (), prior, w₁⟩ ∧ (f x' n w₁).events = own ++ e :: rest :=
      ⟨[], x, xs, w, [], before, rest, rfl, rfl, rfl, hx⟩
    rw [Run.each, bind_apply] at h
    rcases hx : f x n w with ⟨u | c | _, es, w'⟩
    all_goals rw [hx] at h hfirst
    · rcases List.append_eq_append_iff.mp h with ⟨before', rfl, hrest⟩ | ⟨rest, rfl, hrest⟩
      · -- The event comes after the first run.
        obtain ⟨xs₁, x', xs₂, w₁, prior, own, rest, rfl, rfl, through, ran⟩ := ih hrest
        refine ⟨x :: xs₁, x', xs₂, w₁, es ++ prior, own, rest, rfl, by rw [List.append_assoc], ?_, ran⟩
        rw [Run.each, bind_of_returned hx, through]
        rfl
      · cases rest with
        | nil =>
          obtain ⟨xs₁, x', xs₂, w₁, prior, own, rest, rfl, hprior, through, ran⟩ :=
            ih (show _ = [] ++ e :: after from hrest.symm)
          refine ⟨x :: xs₁, x', xs₂, w₁, before ++ prior, own, rest, rfl, ?_, ?_, ran⟩
          · rw [List.append_assoc, ← hprior, List.append_nil]
          · rw [Run.each, bind_of_returned hx, through, List.append_nil]
            rfl
        | cons e' rest =>
          obtain ⟨rfl, -⟩ := List.cons.inj hrest
          exact hfirst rfl
    · exact hfirst h
    · exact hfirst h

/-- One run after another, which goes on however the first one ended. -/
def thereafter (r : Run ε σ α) (next : Ending α → Run ε σ β) : Run ε σ β := fun n w =>
  let t := r n w
  let rest := next t.ending n t.world
  ⟨rest.ending, t.events ++ rest.events, rest.world⟩

theorem bind_eq_thereafter (r : Run ε σ α) (next : α → Run ε σ β) :
    r >>= next = r.thereafter fun
      | .returned a => next a
      | .raised e => raise e
      | .unfinished => unfinished := by
  funext n w
  unfold thereafter
  rw [bind_apply]
  rcases r n w with ⟨a | e | _, es, w'⟩
  · rfl
  all_goals simp [raise, unfinished]

theorem rescue_eq_thereafter (r : Run ε σ α) (handler : Fault → Run ε σ α) :
    r.rescue handler = r.thereafter fun
      | .returned a => Pure.pure a
      | .raised e => handler e
      | .unfinished => unfinished := by
  funext n w
  unfold rescue thereafter
  rcases r n w with ⟨a | e | _, es, w'⟩
  · simp [Pure.pure, Run.pure]
  · rfl
  · simp [unfinished]

theorem attempt_eq_thereafter (r : Run ε σ α) :
    r.attempt = r.thereafter fun
      | .returned a => Pure.pure (.ok a)
      | .raised e => Pure.pure (.error e)
      | .unfinished => unfinished := by
  funext n w
  unfold attempt thereafter
  rcases r n w with ⟨a | e | _, es, w'⟩ <;> simp [Pure.pure, Run.pure, unfinished]

/-! ## Postconditions -/

/-- Every trail of the run has the postcondition, whatever the budget and the world. -/
def Ensures (r : Run ε σ α) (P : List ε → Ending α → Prop) : Prop :=
  ∀ n w, P (r n w).events (r n w).ending

/-- Some trail of the run has these events and this ending. -/
def Leaves (r : Run ε σ α) (es : List ε) (o : Ending α) : Prop :=
  ∃ n w, (r n w).events = es ∧ (r n w).ending = o

/-- Every event of every trail of the run has the property. -/
def Emits (r : Run ε σ α) (P : ε → Prop) : Prop :=
  r.Ensures fun es _ => ∀ e ∈ es, P e

/-- The run ensures a postcondition that does not ask what it returns. -/
def Meets (r : Run ε σ α) (P : List ε → Ending Unit → Prop) : Prop :=
  r.Ensures fun es o => P es o.forget

/-- A fallible computation in a run. -/
theorem liftM_eq (x : Fallible α) : (liftM x : Run ε σ α) = ofFallible x := rfl

namespace Ensures

variable {P : List ε → Ending α → Prop} {Q : List ε → Ending β → Prop}

theorem mono {P' : List ε → Ending α → Prop} {r : Run ε σ α} (hr : r.Ensures P)
    (h : ∀ es o, P es o → P' es o) : r.Ensures P' :=
  fun n w => h _ _ (hr n w)

theorem and {P' : List ε → Ending α → Prop} {r : Run ε σ α} (hr : r.Ensures P)
    (hr' : r.Ensures P') : r.Ensures fun es o => P es o ∧ P' es o :=
  fun n w => ⟨hr n w, hr' n w⟩

/-- A run ensures that it left what it left. -/
theorem leaves (r : Run ε σ α) : r.Ensures r.Leaves :=
  fun n w => ⟨n, w, rfl, rfl⟩

theorem pure {a : α} (h : P [] (.returned a)) : (Pure.pure a : Run ε σ α).Ensures P :=
  fun _ _ => h

theorem raise {e : Fault} (h : P [] (.raised e)) : (Run.raise e : Run ε σ α).Ensures P :=
  fun _ _ => h

theorem unfinished (h : P [] .unfinished) : (Run.unfinished : Run ε σ α).Ensures P :=
  fun _ _ => h

theorem emit {P : List ε → Ending Unit → Prop} {event : ε} (h : P [event] (.returned ())) :
    (Run.emit event : Run ε σ Unit).Ensures P :=
  fun _ _ => h

theorem ofFallible {x : Fallible α} (ok : ∀ a, x = .ok a → P [] (.returned a))
    (error : ∀ e, x = .error e → P [] (.raised e)) : (Run.ofFallible x : Run ε σ α).Ensures P := by
  intro n w
  cases x with
  | ok a => exact ok a rfl
  | error e => exact error e rfl

theorem withBudget {f : Nat → Run ε σ α} (h : ∀ n, (f n).Ensures P) :
    (Run.withBudget f).Ensures P :=
  fun n w => h n n w

/-- A run that goes on with another one: what the first one ensures is what the postcondition of
the whole may rely on where the second one starts, and has to give it where the first one ends the
whole. -/
theorem bind {r : Run ε σ α} {next : α → Run ε σ β} (hr : r.Ensures P)
    (returned : ∀ es a, P es (.returned a) → (next a).Ensures fun es' o => Q (es ++ es') o)
    (raised : ∀ es e, P es (.raised e) → Q es (.raised e))
    (unfinished : ∀ es, P es .unfinished → Q es .unfinished) : (r >>= next).Ensures Q := by
  intro n w
  have h := hr n w
  change Q (Run.bind r next n w).events (Run.bind r next n w).ending
  unfold Run.bind
  rcases hrun : r n w with ⟨o, es, w'⟩
  rw [hrun] at h
  cases o with
  | returned a => exact returned es a h n w'
  | raised e => exact raised es e h
  | unfinished => exact unfinished es h

/-- A run that goes on after one event. -/
theorem emit_bind {event : ε} {next : Unit → Run ε σ β}
    (h : (next ()).Ensures fun es o => Q (event :: es) o) : (Run.emit event >>= next).Ensures Q :=
  h

/-- A run that goes on with the result of a computation. -/
theorem ofFallible_bind {x : Fallible α} {next : α → Run ε σ β}
    (ok : ∀ a, x = .ok a → (next a).Ensures Q) (error : ∀ e, x = .error e → Q [] (.raised e)) :
    ((liftM x : Run ε σ α) >>= next).Ensures Q := by
  cases x with
  | ok a => exact ok a rfl
  | error e => exact fun n w => error e rfl

/-- A run whose failure is handled. -/
theorem rescue {P' : List ε → Ending α → Prop} {r : Run ε σ α} {handler : Fault → Run ε σ α}
    (hr : r.Ensures P) (returned : ∀ es a, P es (.returned a) → P' es (.returned a))
    (raised : ∀ es e, P es (.raised e) → (handler e).Ensures fun es' o => P' (es ++ es') o)
    (unfinished : ∀ es, P es .unfinished → P' es .unfinished) :
    (r.rescue handler).Ensures P' := by
  intro n w
  have h := hr n w
  unfold Run.rescue
  rcases hrun : r n w with ⟨o, es, w'⟩
  rw [hrun] at h
  cases o with
  | returned a => exact returned es a h
  | raised e => exact raised es e h n w'
  | unfinished => exact unfinished es h

/-- A run whose failure becomes a value. -/
theorem attempt {P' : List ε → Ending (Fallible α) → Prop} {r : Run ε σ α} (hr : r.Ensures P)
    (returned : ∀ es a, P es (.returned a) → P' es (.returned (.ok a)))
    (raised : ∀ es e, P es (.raised e) → P' es (.returned (.error e)))
    (unfinished : ∀ es, P es .unfinished → P' es .unfinished) : r.attempt.Ensures P' := by
  intro n w
  have h := hr n w
  unfold Run.attempt
  rcases hrun : r n w with ⟨o, es, w'⟩
  rw [hrun] at h
  cases o with
  | returned a => exact returned es a h
  | raised e => exact raised es e h
  | unfinished => exact unfinished es h

theorem mapEvents {P' : List ε' → Ending α → Prop} {f : ε → ε'} {r : Run ε σ α}
    (hr : r.Ensures fun es o => P' (es.map f) o) : (r.mapEvents f).Ensures P' :=
  fun n w => hr n w

/-- What one round of a repeated run has to ensure, where `Q b` is what the repetition ensures from
`b` on: a round that goes on leaves it to the next one, and any other has to give it. -/
def Continues (Q : β → List ε → Ending α → Prop) (b : β) (es : List ε) : Ending (β ⊕ α) → Prop
  | .returned (.inl b') => ∀ es' o, Q b' es' o → Q b (es ++ es') o
  | .returned (.inr a) => Q b es (.returned a)
  | .raised e => Q b es (.raised e)
  | .unfinished => Q b es .unfinished

/-- A round that does not return leaves nothing to the next one. -/
theorem Continues.stop {Q : β → List ε → Ending Unit → Prop} {b : β} {es : List ε}
    {o : Ending (β ⊕ Unit)} (h : Q b es o.forget) (ho : o.forget ≠ .returned ()) :
    Continues Q b es o := by
  cases o with
  | returned => exact absurd rfl ho
  | raised | unfinished => exact h

theorem repeatFor {Q : β → List ε → Ending α → Prop} {round : β → Run ε σ (β ⊕ α)}
    (spent : ∀ b, Q b [] .unfinished) (hround : ∀ b, (round b).Ensures (Continues Q b)) (n : Nat)
    (b : β) : (Run.repeatFor round n b).Ensures (Q b) := by
  induction n generalizing b with
  | zero => exact Ensures.unfinished (spent b)
  | succ n ih =>
    refine Ensures.bind (hround b) (fun es next h => ?_) (fun es e h => h) fun es h => h
    cases next with
    -- The rounds after this one start anywhere, hence the induction over all `b`.
    | inl b' => exact fun m w => h _ _ (ih b' m w)
    | inr a => exact Ensures.pure (by simpa [Continues] using h)

/-- A repetition ensures what its rounds hand on. -/
theorem repeatFrom {Q : β → List ε → Ending α → Prop} {round : β → Run ε σ (β ⊕ α)}
    (spent : ∀ b, Q b [] .unfinished) (hround : ∀ b, (round b).Ensures (Continues Q b)) (b : β) :
    (Run.repeatFrom round b).Ensures (Q b) :=
  Ensures.withBudget fun n => repeatFor spent hround n b

end Ensures

/-! ## Properties of single events -/

namespace Emits

variable {P : ε → Prop}

theorem mono {P' : ε → Prop} {r : Run ε σ α} (hr : r.Emits P) (h : ∀ e, P e → P' e) :
    r.Emits P' :=
  fun n w e he => h e (hr n w e he)

theorem emit {event : ε} (h : P event) : (Run.emit event : Run ε σ Unit).Emits P :=
  Ensures.emit (by simpa using h)

theorem bind {r : Run ε σ α} {next : α → Run ε σ β} (hr : r.Emits P)
    (hnext : ∀ a, (next a).Emits P) : (r >>= next).Emits P := by
  refine Ensures.bind hr (fun es a hes n w e he => ?_) (fun es _ hes => hes) (fun es hes => hes)
  rcases List.mem_append.mp he with he | he
  · exact hes e he
  · exact hnext a n w e he

theorem rescue {r : Run ε σ α} {handler : Fault → Run ε σ α} (hr : r.Emits P)
    (hh : ∀ e, (handler e).Emits P) : (r.rescue handler).Emits P := by
  refine Ensures.rescue hr (fun es a hes => hes) (fun es e hes n w event he => ?_)
    (fun es hes => hes)
  rcases List.mem_append.mp he with he | he
  · exact hes event he
  · exact hh e n w event he

theorem attempt {r : Run ε σ α} (hr : r.Emits P) : r.attempt.Emits P :=
  Ensures.attempt hr (fun _ _ hes => hes) (fun _ _ hes => hes) (fun _ hes => hes)

theorem ofFallible (x : Fallible α) : (Run.ofFallible x : Run ε σ α).Emits P :=
  Ensures.ofFallible (fun _ _ => by simp) (fun _ _ => by simp)

theorem world (f : σ → α × σ) : (Run.world f : Run ε σ α).Emits P :=
  fun _ _ _ he => by cases he

theorem mapEvents {P' : ε' → Prop} {f : ε → ε'} {r : Run ε σ α} (hr : r.Emits fun e => P' (f e)) :
    (r.mapEvents f).Emits P' :=
  Ensures.mapEvents fun n w => by simpa using hr n w

theorem each {f : α → Run ε σ Unit} {xs : List α} (hf : ∀ x ∈ xs, (f x).Emits P) :
    (Run.each f xs).Emits P := by
  induction xs with
  | nil => exact Ensures.pure (by simp)
  | cons x xs ih => exact bind (hf x (by simp)) fun _ => ih fun y hy => hf y (by simp [hy])

end Emits

/-! ## Postconditions that compose -/

/-- A postcondition that runs keep when one goes on with the other. -/
structure Composes (P : List ε → Ending Unit → Prop) : Prop where
  nil : P [] (.returned ())
  unfinished : P [] .unfinished
  append : ∀ {es es' o}, P es (.returned ()) → P es' o → P (es ++ es') o

namespace Composes

variable {P : List ε → Ending Unit → Prop}

/-- What holds of every single event is kept. -/
theorem emits (P : ε → Prop) : Composes fun es (_ : Ending Unit) => ∀ e ∈ es, P e where
  nil := by simp
  unfinished := by simp
  append h h' := List.forall_mem_append.mpr ⟨h, h'⟩

theorem pure (hP : Composes P) (a : α) : (Pure.pure a : Run ε σ α).Meets P :=
  Ensures.pure hP.nil

/-- The second run may rely on what the first one says about its value. -/
theorem bind_of (hP : Composes P) {r : Run ε σ α} {next : α → Run ε σ β} {V : α → Prop}
    (hr : r.Ensures fun es o => P es o.forget ∧ ∀ a, o = .returned a → V a)
    (hnext : ∀ a, V a → (next a).Meets P) : (r >>= next).Meets P := by
  refine Ensures.bind hr (fun es a h n w => ?_) (fun es e h => h.1) (fun es h => h.1)
  exact hP.append h.1 (hnext a (h.2 a rfl) n w)

theorem bind (hP : Composes P) {r : Run ε σ α} {next : α → Run ε σ β} (hr : r.Meets P)
    (hnext : ∀ a, (next a).Meets P) : (r >>= next).Meets P :=
  hP.bind_of (V := fun _ => True) (hr.mono fun _ _ h => ⟨h, fun _ _ => trivial⟩)
    fun a _ => hnext a

theorem bind_pure (hP : Composes P) {r : Run ε σ α} (hr : r.Meets P) (g : α → β) :
    (r >>= fun a => Pure.pure (g a)).Meets P :=
  hP.bind hr fun a => hP.pure (g a)

theorem each (hP : Composes P) {f : α → Run ε σ Unit} {xs : List α}
    (hf : ∀ x ∈ xs, (f x).Meets P) : (Run.each f xs).Meets P := by
  induction xs with
  | nil => exact hP.pure ()
  | cons x xs ih =>
    exact hP.bind (hf x (by simp)) fun _ => ih fun y hy => hf y (by simp [hy])

theorem repeatFor (hP : Composes P) {round : β → Run ε σ (β ⊕ α)} (hr : ∀ b, (round b).Meets P)
    (n : Nat) (b : β) : (Run.repeatFor round n b).Meets P := by
  induction n generalizing b with
  | zero => exact Ensures.unfinished hP.unfinished
  | succ n ih =>
    refine hP.bind (hr b) fun next => ?_
    cases next with
    | inl b => exact ih b
    | inr a => exact hP.pure a

theorem repeatFrom (hP : Composes P) {round : β → Run ε σ (β ⊕ α)}
    (hr : ∀ b, (round b).Meets P) (b : β) : (Run.repeatFrom round b).Meets P :=
  Ensures.withBudget fun n => hP.repeatFor hr n b

end Composes

end Run

end Reflash
