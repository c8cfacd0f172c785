import Reflash.Proofs.Congruence
import Reflash.Proofs.Handlers

set_option autoImplicit false

/-! # Runs that are held

A run that is held where something fails shows what was seen of it by then (`Run.heldAt`). What
happens afterwards is then the difference between the run and the held one (`Run.Held`). There is one
rule for each way of putting runs together: it is enough to say for each place where failures are
handled what is done there about the failures by which runs are held. -/

namespace Reflash

open Run

variable {ε ε' σ α β : Type}

/-! ## Holding -/

/-- What was seen of a run, and then of another one that went on from there. -/
def Trail.goOn (t : Trail ε σ α) (rest : Trail ε σ β) : Trail ε σ β :=
  ⟨rest.ending, t.events ++ rest.events, rest.world⟩

namespace Run

/-- The run, held where it fails by one of the causes. -/
def heldAt (causes : Fault → Bool) (r : Run ε σ α) : Run ε σ α := fun n w =>
  match r n w with
  | ⟨.raised e, es, w'⟩ => ⟨if causes e then .unfinished else .raised e, es, w'⟩
  | t => t

theorem heldAt_cases (causes : Fault → Bool) (r : Run ε σ α) (n : Nat) (w : σ) :
    ((∀ e, (r n w).ending = .raised e → causes e = false) ∧ r.heldAt causes n w = r n w) ∨
      ∃ e, causes e = true ∧ (r n w).ending = .raised e ∧
        r.heldAt causes n w = ⟨.unfinished, (r n w).events, (r n w).world⟩ := by
  unfold heldAt
  rcases r n w with ⟨a | e | _, es, w'⟩
  · exact .inl ⟨fun _ h => (by cases h), rfl⟩
  · cases he : causes e with
    | true => exact .inr ⟨e, he, rfl, by simp [he]⟩
    | false => exact .inl ⟨fun _ h => (by cases h; exact he), by simp [he]⟩
  · exact .inl ⟨fun _ h => (by cases h), rfl⟩

/-- As long as it is not held, `held` goes as the run, and keeps the property `I` of worlds. If it is
held, what the run still does from there has the property `after`. -/
def Held (I : σ → Prop) (after : Trail ε σ α → Prop) (r held : Run ε σ α) : Prop :=
  ∀ n w, I w → (held n w = r n w ∧ I (r n w).world) ∨
    (held n w).ending = .unfinished ∧ ∃ tail, (r n w).events = (held n w).events ++ tail ∧
      after ⟨(r n w).ending, tail, (r n w).world⟩

/-- The run keeps the property of worlds, unless it fails by one of the causes. -/
def KeepsUnless (I : σ → Prop) (causes : Fault → Bool) (r : Run ε σ α) : Prop :=
  ∀ n w, I w → I (r n w).world ∨ ∃ e, causes e = true ∧ (r n w).ending = .raised e

/-- All that still happens is that the run fails by one of the causes, with closing events at most. -/
def Stopping (stops : Fault → Prop) (closes : ε → Prop) (t : Trail ε σ α) : Prop :=
  (∃ c, stops c ∧ t.ending = .raised c) ∧ ∀ e ∈ t.events, closes e

theorem Stopping.intro {stops : Fault → Prop} {closes : ε → Prop} {c : Fault} {es : List ε} {w : σ}
    (hc : stops c) (hes : ∀ e ∈ es, closes e) :
    Stopping stops closes (⟨.raised c, es, w⟩ : Trail ε σ α) :=
  ⟨⟨c, hc, rfl⟩, hes⟩

/-- After closing events nothing but other closing events may come. -/
theorem Stopping.goOn {stops stops' : Fault → Prop} {closes : ε → Prop} {t : Trail ε σ α}
    {rest : Trail ε σ β} (h : Stopping stops closes t) (hrest : Stopping stops' closes rest) :
    Stopping stops' closes (t.goOn rest) := by
  refine ⟨hrest.1, fun e he => ?_⟩
  rcases List.mem_append.mp he with he | he
  · exact h.2 e he
  · exact hrest.2 e he

theorem attempt_bind_eq_thereafter (r : Run ε σ α) (next : Fallible α → Run ε σ β) :
    r.attempt >>= next = r.thereafter fun
      | .returned a => next (.ok a)
      | .raised e => next (.error e)
      | .unfinished => unfinished := by
  funext n w
  rw [bind_apply]
  unfold attempt thereafter
  rcases r n w with ⟨a | e | _, es, w'⟩
  · rfl
  · rfl
  · simp [unfinished]

theorem world_attempt (r : Run ε σ α) (n : Nat) (w : σ) :
    (r.attempt n w).world = (r n w).world := by
  unfold attempt
  rcases r n w with ⟨_ | _ | _, es, w'⟩ <;> rfl

namespace Held

variable {I : σ → Prop} {after : Trail ε σ α → Prop} {r r' : Run ε σ α}

/-- A run in which nothing is held. -/
theorem same (h : ∀ n w, I w → I (r n w).world) : Held I after r r :=
  fun n w hw => .inl ⟨rfl, h n w hw⟩

theorem ofFallible (x : Fallible α) : Held I after (Run.ofFallible x : Run ε σ α) (.ofFallible x) :=
  same fun _ _ hw => by cases x <;> exact hw

theorem pure (a : α) : Held I after (Pure.pure a : Run ε σ α) (Pure.pure a) :=
  ofFallible (.ok a)

theorem raise (e : Fault) : Held I after (Run.raise e : Run ε σ α) (.raise e) :=
  ofFallible (.error e)

theorem emit {after : Trail ε σ Unit → Prop} (e : ε) : Held I after (Run.emit e) (Run.emit e) :=
  same fun _ _ hw => hw

theorem mono {after' : Trail ε σ α → Prop} (h : Held I after r r') (hafter : ∀ t, after t → after' t) :
    Held I after' r r' := fun n w hw => by
  rcases h n w hw with hsame | ⟨hheld, tail, hevents, ht⟩
  · exact .inl hsame
  · exact .inr ⟨hheld, tail, hevents, hafter _ ht⟩

theorem withBudget {f f' : Nat → Run ε σ α} (h : ∀ n, Held I after (f n) (f' n)) :
    Held I after (Run.withBudget f) (Run.withBudget f') :=
  fun n => h n n

/-- Where something else follows, it follows what was held. -/
theorem thereafter {after' : Trail ε σ β → Prop} {next next' : Ending α → Run ε σ β}
    (h : Held I after r r') (hnext : ∀ o, Held I after' (next o) (next' o))
    (hunfinished : next' .unfinished = unfinished)
    (hafter : ∀ t n, after t → after' (t.goOn (next t.ending n t.world))) :
    Held I after' (r.thereafter next) (r'.thereafter next') := by
  intro n w hw
  unfold Run.thereafter
  dsimp only
  rcases h n w hw with ⟨hsame, hI⟩ | ⟨hheld, tail, hevents, ht⟩
  · rw [hsame]
    rcases hnext (r n w).ending n _ hI with ⟨hsame', hI'⟩ | ⟨hheld', tail', hevents', ht'⟩
    · exact .inl ⟨by rw [hsame'], hI'⟩
    · exact .inr ⟨hheld', tail', by rw [hevents', List.append_assoc], ht'⟩
  · right
    rw [hheld, hunfinished, hevents, List.append_assoc]
    refine ⟨rfl, _, ?_, hafter ⟨(r n w).ending, tail, (r n w).world⟩ n ht⟩
    simp [unfinished]

variable {stops stops' : Fault → Prop} {closes : ε → Prop}

/-- What follows a run that only stops has to say what comes of the stop. -/
theorem bind_after {after' : Trail ε σ β → Prop} {next next' : α → Run ε σ β}
    (h : Held I (Stopping stops closes) r r') (hnext : ∀ a, Held I after' (next a) (next' a))
    (hafter : ∀ t : Trail ε σ β, Stopping stops closes t → after' t) :
    Held I after' (r >>= next) (r' >>= next') := by
  rw [bind_eq_thereafter, bind_eq_thereafter]
  refine h.thereafter (fun o => ?_) rfl fun t n ht => hafter _ ?_
  · cases o with
    | returned a => exact hnext a
    | raised e => exact raise e
    | unfinished => exact same fun _ _ hw => hw
  · obtain ⟨⟨c, hc, hending⟩, -⟩ := id ht
    rw [hending]
    exact ht.goOn (.intro hc (by simp))

theorem bind {next next' : α → Run ε σ β} (h : Held I (Stopping stops closes) r r')
    (hnext : ∀ a, Held I (Stopping stops closes) (next a) (next' a)) :
    Held I (Stopping stops closes) (r >>= next) (r' >>= next') :=
  h.bind_after hnext fun _ ht => ht

/-- A handler of failures has to say what comes of the stop. -/
theorem rescue_after {after' : Trail ε σ α → Prop} {handler handler' : Fault → Run ε σ α}
    (h : Held I (Stopping stops closes) r r')
    (hhandler : ∀ e, Held I after' (handler e) (handler' e))
    (hafter : ∀ (t : Trail ε σ α) n c, Stopping stops closes t → stops c →
      after' (t.goOn (handler c n t.world))) :
    Held I after' (r.rescue handler) (r'.rescue handler') := by
  rw [rescue_eq_thereafter, rescue_eq_thereafter]
  refine h.thereafter (fun o => ?_) rfl fun t n ht => ?_
  · cases o with
    | returned a => exact pure a
    | raised e => exact hhandler e
    | unfinished => exact same fun _ _ hw => hw
  · obtain ⟨⟨c, hc, hending⟩, -⟩ := id ht
    rw [hending]
    exact hafter t n c ht hc

theorem rescue {handler handler' : Fault → Run ε σ α} (h : Held I (Stopping stops closes) r r')
    (hhandler : ∀ e, Held I (Stopping stops' closes) (handler e) (handler' e))
    (hstops : ∀ c n w, stops c → Stopping stops' closes (handler c n w)) :
    Held I (Stopping stops' closes) (r.rescue handler) (r'.rescue handler') :=
  h.rescue_after hhandler fun _ n c ht hc => ht.goOn (hstops c n _ hc)

theorem attempt_bind {next next' : Fallible α → Run ε σ β} (h : Held I (Stopping stops closes) r r')
    (hnext : ∀ x, Held I (Stopping stops' closes) (next x) (next' x))
    (hstops : ∀ c n w, stops c → Stopping stops' closes (next (.error c) n w)) :
    Held I (Stopping stops' closes) (r.attempt >>= next) (r'.attempt >>= next') := by
  rw [attempt_bind_eq_thereafter, attempt_bind_eq_thereafter]
  refine h.thereafter (fun o => ?_) rfl fun t n ht => ?_
  · cases o with
    | returned a => exact hnext _
    | raised e => exact hnext _
    | unfinished => exact same fun _ _ hw => hw
  · obtain ⟨⟨c, hc, hending⟩, -⟩ := id ht
    rw [hending]
    exact ht.goOn (hstops c n _ hc)

theorem repeatFrom {round round' : β → Run ε σ (β ⊕ α)}
    (h : ∀ b, Held I (Stopping stops closes) (round b) (round' b)) (b : β) :
    Held I (Stopping stops closes) (Run.repeatFrom round b) (Run.repeatFrom round' b) := by
  refine withBudget fun n => ?_
  induction n generalizing b with
  | zero => exact same fun _ _ hw => hw
  | succ n ih =>
    refine (h b).bind fun next => ?_
    cases next with
    | inl b => exact ih b
    | inr a => exact pure a

theorem filterEvents_after {after' : Trail ε' σ α → Prop} (f : ε → Option ε')
    (h : Held I after r r')
    (hafter : ∀ t, after t → after' ⟨t.ending, t.events.filterMap f, t.world⟩) :
    Held I after' (r.filterEvents f) (r'.filterEvents f) := by
  intro n w hw
  unfold Run.filterEvents
  rcases h n w hw with ⟨hsame, hI⟩ | ⟨hheld, tail, hevents, ht⟩
  · exact .inl ⟨by rw [hsame], hI⟩
  · refine .inr ⟨hheld, tail.filterMap f, ?_, hafter _ ht⟩
    dsimp only
    rw [hevents, List.filterMap_append]

theorem mapEvents {closes' : ε' → Prop} (f : ε → ε') (h : Held I (Stopping stops closes) r r')
    (hf : ∀ e, closes e → closes' (f e)) :
    Held I (Stopping stops closes') (r.mapEvents f) (r'.mapEvents f) := by
  have heq (r : Run ε σ α) : r.mapEvents f = r.filterEvents fun e => some (f e) := by
    funext n w
    exact congrArg (Trail.mk _ · _) (congrFun List.filterMap_eq_map.symm _)
  rw [heq, heq]
  refine h.filterEvents_after _ fun t ht => ⟨ht.1, fun e' he' => ?_⟩
  obtain ⟨e, he, hmapped⟩ := List.mem_filterMap.mp he'
  cases hmapped
  exact hf e (ht.2 e he)

/-- A run that is held where it fails by a cause itself. -/
theorem heldAt {causes : Fault → Bool} (h : Held I (Stopping stops closes) r r')
    (hstops : ∀ e, causes e = true → stops e) :
    Held I (Stopping stops closes) r (r'.heldAt causes) := by
  intro n w hw
  rcases heldAt_cases causes r' n w with ⟨-, hthrough⟩ | ⟨e, he, hraised, hcut⟩
  · rw [hthrough]
    exact h n w hw
  · rw [hcut]
    rcases h n w hw with ⟨hsame, -⟩ | ⟨hheld, -⟩
    · rw [hsame] at hraised ⊢
      exact .inr ⟨rfl, [], by simp, ⟨e, hstops e he, hraised⟩, by simp⟩
    · cases hheld.symm.trans hraised

/-- A call that is held where it fails by a cause, and keeps the property otherwise. -/
theorem of_keepsUnless {causes : Fault → Bool} (h : r.KeepsUnless I causes)
    (hstops : ∀ e, causes e = true → stops e) :
    Held I (Stopping stops closes) r (r.heldAt causes) := by
  intro n w hw
  rcases heldAt_cases causes r n w with ⟨hnone, hthrough⟩ | ⟨e, he, hraised, hcut⟩
  · rcases h n w hw with hI | ⟨e, he, hraised⟩
    · exact .inl ⟨hthrough, hI⟩
    · cases (hnone e hraised).symm.trans he
  · rw [hcut]
    exact .inr ⟨rfl, [], by simp, ⟨e, hstops e he, hraised⟩, by simp⟩

end Held

end Run

end Reflash
