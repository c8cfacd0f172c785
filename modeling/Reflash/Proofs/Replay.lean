import Reflash.Proofs.Recovery

set_option autoImplicit false

/-! # What the replays of a step cost

A step starts its actions once, and once more for each replay that recovery grants. Each replay is
paid for: by an answer of the user, by a reconnection that worked, or by an unlock flow that ended
without a failure. The ledger of a step (`count`) is kept over the events of the step itself; those
of the steps below it are inside `within`, and do not count.

`Balanced` says of the events in order that no start and no replay goes without its payment, and
`Grants` what one course of recovery adds to the ledger. The attempt record says how much of the
automatic reconnections and of the unlocking is used up when a start begins, so the two are bounded
over all replays together (`Spends`). -/

namespace Reflash

open Run

variable {σ α β : Type}

/-! ## The ledger of a step -/

/-- What the ledger of a step is kept about. -/
inductive Entry where
  /-- The actions of the step are started. -/
  | start
  /-- Another start is granted. -/
  | replay
  /-- Something pays for another start. -/
  | payment
  /-- A question of recovery is answered so that the run can go on. -/
  | resumption
  /-- Recovery turns to an automatic reconnection. -/
  | reconnection
  /-- The reconnecting action is dispatched by recovery. -/
  | dispatch
  /-- The unlock flow is entered. -/
  | unlocking
deriving Repr, DecidableEq

namespace Event

/-- Whether an event counts for an entry of the ledger. -/
def counts : Entry → Event → Bool
  | .start, started _ => true
  | .replay, replayed .. => true
  | .payment, answered .lowPower d => d.resumes
  | .payment, answered .connectionLost d => d.resumes
  | .payment, answered .error d => d.choice == .retry
  | .payment, left .reconnect => true
  | .payment, left .unlock => true
  | .resumption, answered _ d => d.resumes
  | .reconnection, entered .reconnect => true
  | .dispatch, within .reconnect (dispatched ..) => true
  | .unlocking, entered .unlock => true
  | _, _ => false

/-- The event counts for nothing but, maybe, an answer. -/
def Idle (e : Event) : Prop :=
  ∀ k, k ≠ .resumption → e.counts k = false

/-- What carrying out actions leaves does not count. -/
theorem OfAction.counts {e : Event} (h : e.OfAction) (k : Entry) : e.counts k = false := by
  cases e with
  | entered part | left part => cases h; cases k <;> rfl
  | within part e => cases h; cases k <;> rfl
  | handler | dispatched | raised => cases k <;> rfl
  | _ => cases h

theorem idle_recovery (s : Signal) : (recovery s).Idle := by
  intro k _
  cases k <;> rfl

/-- An answer that pays for nothing. -/
theorem idle_answered {prompt : Prompt} {d : Decision}
    (h : (answered prompt d).counts .payment = false) : (answered prompt d).Idle := by
  intro k hk
  cases k with
  | payment => exact h
  | resumption => contradiction
  | _ => rfl

theorem idle_within_unlock (e : Event) : (within .unlock e).Idle := by
  intro k _
  cases k <;> rfl

theorem idle_within_unlockFallback (e : Event) : (within .unlockFallback e).Idle := by
  intro k _
  cases k <;> rfl

end Event

/-- How often an entry was made. -/
def count (k : Entry) (es : List Event) : Nat :=
  es.countP (Event.counts k)

@[simp] theorem count_nil (k : Entry) : count k [] = 0 := rfl

@[simp] theorem count_append (k : Entry) (es es' : List Event) :
    count k (es ++ es') = count k es + count k es' :=
  List.countP_append

@[simp] theorem count_cons (k : Entry) (e : Event) (es : List Event) :
    count k (e :: es) = count k es + (e.counts k).toNat := by
  rw [count, List.countP_cons, ← count]
  cases e.counts k <;> rfl

theorem count_eq_zero {k : Entry} {es : List Event} (h : ∀ e ∈ es, e.counts k = false) :
    count k es = 0 :=
  List.countP_eq_zero.mpr fun e he => by simp [h e he]

theorem count_of_idle {k : Entry} {es : List Event} (h : ∀ e ∈ es, e.Idle)
    (hk : k ≠ .resumption) : count k es = 0 :=
  count_eq_zero fun e he => h e he k hk

/-! ## Balanced events -/

/-- No start and no replay goes without its payment, from a point on where `starts`, `replays` and
`payments` were counted. -/
def Balanced (starts replays payments : Nat) : List Event → Prop
  | [] => True
  | e :: es =>
    (e.counts .start → starts = replays ∧ payments = replays) ∧
    (∀ text k, e = .replayed text k →
      starts = replays + 1 ∧ payments = replays + 1 ∧ k = replays + 1) ∧
    Balanced (starts + (e.counts .start).toNat) (replays + (e.counts .replay).toNat)
      (payments + (e.counts .payment).toNat) es

theorem balanced_append {s r p : Nat} {es es' : List Event} :
    Balanced s r p (es ++ es') ↔
      Balanced s r p es ∧
        Balanced (s + count .start es) (r + count .replay es) (p + count .payment es) es' := by
  induction es generalizing s r p with
  | nil => simp [Balanced]
  | cons e es ih =>
    simp only [List.cons_append, Balanced, ih, count_cons, and_assoc]
    simp only [Nat.add_assoc, Nat.add_comm (Bool.toNat _)]

/-- Events without a start and a replay are balanced wherever they stand. -/
theorem balanced_of_count {s r p : Nat} {es : List Event} (hs : count .start es = 0)
    (hr : count .replay es = 0) : Balanced s r p es := by
  induction es generalizing s r p with
  | nil => trivial
  | cons e es ih =>
    simp only [count_cons, Nat.add_eq_zero_iff] at hs hr
    refine ⟨fun h => ?_, fun text k h => ?_, ih hs.1 hr.1⟩
    · simp [h] at hs
    · subst h
      cases hr.2

/-! ## What recovery grants -/

/-- What a course of recovery adds to the ledger: no start and no replay of its own, one payment if
it grants a replay, and at most so many reconnections and unlock flows. -/
structure Grants (reconnections unlockings : Nat) (es : List Event) (o : Ending Resolution) :
    Prop where
  start : count .start es = 0
  replay : count .replay es = 0
  payment : o = .returned .replay → count .payment es = 1
  funded : count .payment es ≤ count .resumption es + count .reconnection es
  reconnection : count .reconnection es ≤ reconnections
  dispatch : count .dispatch es ≤ count .reconnection es
  unlocking : count .unlocking es ≤ unlockings

namespace Grants

variable {r u : Nat} {es es' : List Event} {o : Ending Resolution}

/-- A course that grants nothing. -/
theorem of_idle (h : ∀ e ∈ es, e.Idle) (ho : o ≠ .returned .replay) : Grants r u es o where
  start := count_of_idle h (by decide)
  replay := count_of_idle h (by decide)
  payment he := absurd he ho
  funded := by simp [count_of_idle h]
  reconnection := by simp [count_of_idle h]
  dispatch := by simp [count_of_idle h]
  unlocking := by simp [count_of_idle h]

theorem prepend (h : ∀ e ∈ es, e.Idle) (h' : Grants r u es' o) : Grants r u (es ++ es') o where
  start := by simp [count_of_idle h, h'.start]
  replay := by simp [count_of_idle h, h'.replay]
  payment ho := by simp [count_of_idle h, h'.payment ho]
  funded := by
    have := h'.funded
    simp only [count_append, count_of_idle h, ne_eq, reduceCtorEq, not_false_eq_true]
    omega
  reconnection := by simpa [count_of_idle h] using h'.reconnection
  dispatch := by simpa [count_of_idle h] using h'.dispatch
  unlocking := by simpa [count_of_idle h] using h'.unlocking

/-- An answer that pays for another start. -/
theorem answered {prompt : Prompt} {d : Decision} (h : ∀ e ∈ es, e.Idle) (hd : d.resumes)
    (hpays : (Event.answered prompt d).counts .payment) :
    Grants r u (es ++ [.answered prompt d]) (.returned .replay) := by
  have hresumes : (Event.answered prompt d).counts .resumption = true := hd
  refine prepend h ⟨rfl, rfl, fun _ => ?_, ?_, ?_, ?_, ?_⟩
  · simp [hpays]
  · simp [hpays, hresumes]
  all_goals simp [Event.counts]

theorem mono {r' u' : Nat} (h : Grants r u es o) (hr : r ≤ r') (hu : u ≤ u') : Grants r' u' es o :=
  { h with
    reconnection := Nat.le_trans h.reconnection hr
    unlocking := Nat.le_trans h.unlocking hu }

/-- The unlock flow is entered. -/
theorem enter_unlock (h : Grants r u es o) : Grants r (u + 1) (.entered .unlock :: es) o where
  start := by simpa [Event.counts] using h.start
  replay := by simpa [Event.counts] using h.replay
  payment ho := by simpa [Event.counts] using h.payment ho
  funded := by simpa [Event.counts] using h.funded
  reconnection := by simpa [Event.counts] using h.reconnection
  dispatch := by simpa [Event.counts] using h.dispatch
  unlocking := by simpa [Event.counts] using h.unlocking

/-- What happens before a course, if it does not count, does not matter. -/
theorem bind {r' u' : Nat} {flow : Flow σ α} {next : α → Flow σ Resolution}
    (hf : flow.Emits Event.Idle) (hnext : ∀ a, (next a).Ensures (Grants r' u')) :
    (flow >>= next).Ensures (Grants r' u') := by
  refine Ensures.bind hf (fun es a h n w => (hnext a n w).prepend h) (fun es e h => ?_)
    fun es h => ?_
  · exact of_idle h (by simp)
  · exact of_idle h (by simp)

end Grants

namespace Recovery

variable {rules : Rules σ} {f : ActionFailure} {step : Step}

theorem log_idle (level : Level) (message : String) :
    (log level message : Flow σ Unit).Emits Event.Idle :=
  (log_emits level message).mono fun _ ⟨s, hs⟩ => hs ▸ Event.idle_recovery s

/-- What is seen of a question is idle up to its answer. -/
theorem ask_idle (rules : Rules σ) (prompt : Prompt) (f : ActionFailure) (step : Step)
    (data : List (String × Value)) :
    (ask rules prompt f step data).Ensures fun es o =>
      (∀ d, o = .returned d → ∃ before, (∀ e ∈ before, e.Idle) ∧
        es = before ++ [.answered prompt d]) ∧
      ((∀ d, o ≠ .returned d) → ∀ e ∈ es, e.Idle) := by
  have signals : ∀ es : List Signal, ∀ e ∈ es.map Event.recovery, e.Idle := by
    intro es e he
    obtain ⟨s, _, rfl⟩ := List.mem_map.mp he
    exact Event.idle_recovery s
  refine ask_ensures (R := fun _ _ => True) (fun _ _ => trivial) ?answered ?unanswered ?unfinished
  case answered =>
    intro es d _
    refine ⟨fun d' h => ⟨_, signals es, ?_⟩, fun h => absurd rfl (h d)⟩
    cases h
    rfl
  case unanswered =>
    intro es e _
    refine ⟨fun d h => (by cases h), fun _ e' he' => ?_⟩
    rcases List.mem_append.mp he' with he' | he'
    · exact signals es e' he'
    · cases List.mem_singleton.mp he'
      intro k _
      cases k <;> rfl
  case unfinished => exact fun es _ => ⟨fun d h => (by cases h), fun _ => signals es⟩

/-- A question that has to be answered so that the run can go on: an answer that lets it is the last
event, and any other one counts for nothing. -/
theorem ask_requireResume (rules : Rules σ) (prompt : Prompt) (hprompt : prompt ≠ .error)
    (f : ActionFailure) (step : Step) (data : List (String × Value)) (message : String) :
    (ask rules prompt f step data >>= fun d => requireResume d message).Ensures fun es o =>
      (o = .returned () → ∃ before d, (∀ e ∈ before, e.Idle) ∧ d.resumes ∧
        es = before ++ [.answered prompt d]) ∧
      (o ≠ .returned () → ∀ e ∈ es, e.Idle) := by
  refine Ensures.bind (ask_idle rules prompt f step data) (fun es d h => ?_) (fun es e h => ?_)
    fun es h => ?_
  · obtain ⟨before, hbefore, rfl⟩ := h.1 d rfl
    unfold requireResume
    split
    · next hd =>
      refine Ensures.pure ⟨fun _ => ⟨before, d, hbefore, hd, by simp⟩, fun h => absurd rfl h⟩
    · next hd =>
      refine Ensures.raise ⟨fun h => (by cases h), fun _ e he => ?_⟩
      rw [List.append_nil] at he
      rcases List.mem_append.mp he with he | he
      · exact hbefore e he
      · cases List.mem_singleton.mp he
        refine Event.idle_answered ?_
        cases prompt <;> simp_all [Event.counts]
  · exact ⟨fun h => (by cases h), fun _ => h.2 (by simp)⟩
  · exact ⟨fun h => (by cases h), fun _ => h.2 (by simp)⟩

variable {r u : Nat}

theorem generic_grants (rules : Rules σ) (f : ActionFailure) (step : Step) :
    (generic rules f step).Ensures (Grants r u) := by
  refine Grants.bind (log_idle _ _) fun _ => ?_
  refine Ensures.bind (ask_idle rules _ f step _) (fun es d h => ?_) (fun es e h => ?_)
    fun es h => ?_
  · obtain ⟨before, hbefore, rfl⟩ := h.1 d rfl
    have idle (hd : d.choice ≠ .retry) : ∀ e ∈ before ++ [.answered .error d], e.Idle := by
      intro e he
      rcases List.mem_append.mp he with he | he
      · exact hbefore e he
      · cases List.mem_singleton.mp he
        exact Event.idle_answered (by simpa [Event.counts] using hd)
    have ignored (hd : d.choice ≠ .retry) :
        (do log .warning ("Ignoring failure of " ++ f.id); return .done : Flow σ Resolution).Ensures
          fun es' o => Grants r u (before ++ [.answered .error d] ++ es') o := by
      refine Ensures.bind (log_idle _ _) (fun es _ hes => ?_) (fun es e hes => ?_) fun es hes => ?_
      · exact Ensures.pure ((Grants.of_idle (by simpa using hes) (by simp)).prepend (idle hd))
      · exact (Grants.of_idle hes (by simp)).prepend (idle hd)
      · exact (Grants.of_idle hes (by simp)).prepend (idle hd)
    split
    · next hd =>
      refine Ensures.pure ?_
      rw [List.append_nil]
      exact Grants.answered hbefore (by simp [Decision.resumes, hd]) (by simp [Event.counts, hd])
    · next hd => exact ignored (by simp [hd])
    · next hd => exact ignored (by simp [hd])
    · next hd => exact Ensures.raise (by simpa using Grants.of_idle (idle (by simp [hd])) (by simp))
  · exact Grants.of_idle (h.2 (by simp)) (by simp)
  · exact Grants.of_idle (h.2 (by simp)) (by simp)

/-- A question that pays for a replay if it is answered so that the run can go on. -/
theorem askToReplay_grants (rules : Rules σ) {prompt : Prompt}
    (hprompt : prompt = .lowPower ∨ prompt = .connectionLost) (f : ActionFailure) (step : Step)
    (data : List (String × Value)) (message : String) :
    (do requireResume (← ask rules prompt f step data) message
        return .replay : Flow σ Resolution).Ensures (Grants r u) := by
  have hne : prompt ≠ .error := by
    rcases hprompt with rfl | rfl <;> decide
  rw [← bind_assoc]
  refine Ensures.bind (ask_requireResume rules prompt hne f step data message)
    (fun es _ h => ?_) (fun es e h => ?_) fun es h => ?_
  · obtain ⟨before, d, hbefore, hd, rfl⟩ := h.1 rfl
    refine Ensures.pure ?_
    rw [List.append_nil]
    refine Grants.answered hbefore hd ?_
    rcases hprompt with rfl | rfl <;> exact hd
  · exact Grants.of_idle (h.2 (by simp)) (by simp)
  · exact Grants.of_idle (h.2 (by simp)) (by simp)

theorem lowBattery_grants (rules : Rules σ) (f : ActionFailure) (step : Step) :
    (lowBattery rules f step).Ensures (Grants r u) :=
  Grants.bind (log_idle _ _) fun _ => askToReplay_grants rules (.inl rfl) f step _ _

theorem connectionLost_grants (rules : Rules σ) (f : ActionFailure) (step : Step) :
    (connectionLost rules f step).Ensures (Grants r u) :=
  askToReplay_grants rules (.inr rfl) f step _ _

/-! ### Unlocking -/

/-- The unlock flow is asked about, but nothing that happens in it counts. -/
theorem unlockRound_idle (rules : Rules σ) (step : Step) :
    (unlockRound rules step).Emits Event.Idle := by
  have asking (f : ActionFailure) (data : List (String × Value)) :
      (ask rules .oemLock f step data).Emits Event.Idle := by
    refine (ask_idle rules .oemLock f step data).mono fun es o h => ?_
    cases o with
    | returned d =>
      obtain ⟨before, hbefore, rfl⟩ := h.1 d rfl
      simpa [or_imp, forall_and] using ⟨hbefore, Event.idle_answered rfl⟩
    | _ => exact h.2 (by simp)
  have fallingBack (as : List Action) :
      (Flow.inPart .unlockFallback (rules.actions as)).Emits Event.Idle := by
    refine Flow.inPart_emits ?_ (fun n w e _ => Event.idle_within_unlockFallback e) ?_
    all_goals
      intro k _
      cases k <;> rfl
  have quiet {γ : Type} (a : γ) : (return a : Flow σ γ).Emits Event.Idle := Ensures.pure (by simp)
  unfold unlockRound Flow.failureOf
  refine Emits.bind (Emits.bind (Emits.attempt
    (Emits.mapEvents fun n w e _ => Event.idle_within_unlock e)) fun r => ?_) fun r => ?_
  · split
    · exact quiet _
    · exact quiet _
    · exact Ensures.raise (by simp)
  · rcases r with _ | ⟨id, cause⟩
    · exact quiet _
    · dsimp only
      split
      · exact Ensures.raise (by simp)
      split
      · refine Emits.bind (asking _ _) fun d => Emits.bind ?_ fun _ => quiet _
        unfold requireResume
        split
        · exact quiet _
        · exact Ensures.raise (by simp)
      split
      · exact Emits.bind (log_idle _ _) fun _ => quiet _
      split
      · exact Emits.bind (log_idle _ _) fun _ => Emits.bind (fallingBack _) fun _ => quiet _
      · exact Emits.bind (log_idle _ _) fun _ => quiet _

theorem runUnlock_idle (rules : Rules σ) (step : Step) :
    (runUnlock rules step).Emits Event.Idle := by
  refine Emits.bind (Emits.ofFallible _) fun applies => ?_
  split
  · refine Ensures.repeatFrom (Q := fun _ es _ => ∀ e ∈ es, Event.Idle e) (by simp) (fun b => ?_) ()
    refine Ensures.mono (unlockRound_idle rules step) fun es o hes => ?_
    rcases o with (_ | _) | _ | _
    · intro es' _ hes' e he
      rcases List.mem_append.mp he with he | he
      · exact hes e he
      · exact hes' e he
    all_goals exact hes
  · exact Emits.bind (log_idle _ _) fun _ => Ensures.pure (by simp)

theorem unlock_grants (rules : Rules σ) (f : ActionFailure) (step : Step) :
    (unlock rules f step).Ensures (Grants r 1) := by
  refine Grants.bind (log_idle _ _) fun _ => ?_
  rw [← bind_assoc]
  refine Ensures.bind (ask_requireResume rules .oemLock (by decide) f step _ _) (fun es _ h => ?_)
    (fun es e h => ?_) fun es h => ?_
  · obtain ⟨before, d, hbefore, hd, rfl⟩ := h.1 rfl
    have idle : ∀ e ∈ before ++ [.answered .oemLock d], e.Idle := by
      simpa [or_imp, forall_and] using ⟨hbefore, Event.idle_answered rfl⟩
    refine Ensures.emit_bind (Ensures.bind (runUnlock_idle rules step) (fun es r hes => ?_)
      (fun es e hes => ?_) fun es hes => ?_)
    · rcases r with _ | f'
      · -- The answer is what the payment rests on, which comes when the unlock flow is left.
        refine Ensures.emit_bind (Ensures.pure ?_)
        have hes' : ∀ k, k ≠ .resumption → count k es = 0 := fun k => count_of_idle hes
        have hres : (Event.answered .oemLock d).counts .resumption = true := hd
        rw [List.append_assoc]
        refine Grants.prepend hbefore ⟨?_, ?_, fun _ => ?_, ?_, ?_, ?_, ?_⟩
        case refine_4 =>
          simp only [List.cons_append, List.nil_append, count_append, count_cons, count_nil, hres]
          simp [hes', Event.counts]
        all_goals simp [hes', Event.counts]
      · exact fun n w => ((generic_grants rules f' step n w).prepend hes).enter_unlock.prepend idle
    · exact (Grants.of_idle hes (by simp)).enter_unlock.prepend idle
    · exact (Grants.of_idle hes (by simp)).enter_unlock.prepend idle
  · exact Grants.of_idle (h.2 (by simp)) (by simp)
  · exact Grants.of_idle (h.2 (by simp)) (by simp)

/-! ### Reconnecting -/

/-- One attempt to reconnect: at most one dispatch, and nothing else counts. -/
def Reconnects (es : List Event) : Prop :=
  count .reconnection es = 1 ∧ count .dispatch es ≤ 1 ∧
    ∀ k, k ≠ .reconnection → k ≠ .dispatch → count k es = 0

theorem reconnects_of_dispatch {es : List Event}
    (h : count .dispatch (es.map (.within .reconnect)) ≤ 1) :
    Reconnects (.entered .reconnect :: es.map (.within .reconnect)) := by
  have within (k : Entry) (hk : k ≠ .dispatch) : count k (es.map (.within .reconnect)) = 0 := by
    refine count_eq_zero fun e he => ?_
    obtain ⟨e', _, rfl⟩ := List.mem_map.mp he
    cases k with
    | dispatch => contradiction
    | _ => rfl
  refine ⟨?_, ?_, fun k hk hk' => ?_⟩
  · simp [within, Event.counts]
  · simpa [Event.counts] using h
  · rw [count_cons, within k hk']
    cases k <;> first | rfl | contradiction

theorem Reconnects.grants {es es' : List Event} {o : Ending Resolution} (h : Reconnects es)
    (h' : Grants r u es' o) : Grants (r + 1) u (es ++ es') o := by
  obtain ⟨hr, hd, hk⟩ := h
  refine ⟨?_, ?_, fun ho => ?_, ?_, ?_, ?_, ?_⟩
  all_goals simp only [count_append, hr, hk, ne_eq, reduceCtorEq, not_false_eq_true, Nat.zero_add]
  · exact h'.start
  · exact h'.replay
  · exact h'.payment ho
  · have := h'.funded
    omega
  · have := h'.reconnection
    omega
  · have := h'.dispatch
    omega
  · exact h'.unlocking

/-- A reconnection that worked pays for itself. -/
theorem Reconnects.pays {es es' : List Event} {o : Ending Resolution} (h : Reconnects es)
    (h' : ∀ e ∈ es', e.Idle) : Grants 1 u (es ++ [.left .reconnect] ++ es') o := by
  obtain ⟨hr, hd, hk⟩ := h
  -- Leaving the reconnection is the payment, and having entered it is what the payment rests on.
  refine ⟨?_, ?_, fun _ => ?_, ?_, ?_, ?_, ?_⟩
  all_goals simp only [count_append, count_cons, count_nil, hr, hk, count_of_idle h', ne_eq,
    reduceCtorEq, not_false_eq_true, Event.counts]
  · rfl
  · rfl
  · rfl
  · simp
  · simp
  · simpa using hd
  · simp

theorem reconnect_grants
    (hact : ∀ a, (rules.actions [a]).Ensures fun es _ =>
      count .dispatch (es.map (.within .reconnect)) ≤ 1)
    (f : ActionFailure) (step : Step) (number : Nat) :
    (reconnect rules f step number).Ensures (Grants 1 u) := by
  have reconnecting : (Flow.inPart .reconnect (rules.actions [reconnectAction])).Ensures
      fun es o => (∀ a, o = .returned a → ∃ es', Reconnects es' ∧ es = es' ++ [.left .reconnect]) ∧
        ((∀ a, o ≠ .returned a) → Reconnects es) := by
    refine Flow.inPart_ensures (hact _) (fun es a h => ?_) (fun es e h => ?_) fun es h => ?_
    · exact ⟨fun _ _ => ⟨_, reconnects_of_dispatch h, rfl⟩, fun hn => absurd rfl (hn a)⟩
    · exact ⟨fun _ h => (by cases h), fun _ => reconnects_of_dispatch h⟩
    · exact ⟨fun _ h => (by cases h), fun _ => reconnects_of_dispatch h⟩
  have failed {es : List Event} {o : Ending Resolution} (h : Reconnects es)
      (ho : o ≠ .returned .replay) : Grants 1 u es o := by
    rw [← List.append_nil es]
    exact h.grants (Grants.of_idle (by simp) ho)
  refine Flow.failureOf_bind reconnecting (fun es a h => ?_) (fun es id c h => ?_)
    (fun es e _ h => failed (h.2 (by simp)) (by simp)) fun es h => failed (h.2 (by simp)) (by simp)
  · obtain ⟨es', hes', rfl⟩ := h.1 a rfl
    refine Ensures.bind (log_idle _ _) (fun es _ hes => Ensures.pure ?_) (fun es e hes => ?_)
      fun es hes => ?_
    · exact hes'.pays (by simpa using hes)
    · exact hes'.pays hes
    · exact hes'.pays hes
  · dsimp only
    split
    · exact Ensures.raise (by simpa using failed (h.2 (by simp)) (by simp))
    · -- The reconnection is used up, but it is the answer that pays.
      intro n w
      exact (h.2 (by simp)).grants
        (Grants.bind (log_idle _ _) (fun _ => connectionLost_grants rules f step) n w)

/-! ### Courses -/

/-- What is used up of the limits when recovery has taken a course: the attempt record says it. -/
theorem course_grants
    (hact : ∀ a, (rules.actions [a]).Ensures fun es _ =>
      count .dispatch (es.map (.within .reconnect)) ≤ 1)
    {a a' : StepAttempt} {course : Flow σ Resolution} (h : Course rules f step a course a') :
    a'.replays = a.replays ∧
    (a'.reconnections = a.reconnections ∨
      a.reconnections < rules.reconnections ∧ a'.reconnections = a.reconnections + 1) ∧
    (a.unlockAttempted → a'.unlockAttempted) ∧
    course.Ensures (Grants (a'.reconnections - a.reconnections)
      (a'.unlockAttempted.toNat - a.unlockAttempted.toNat)) := by
  have passing {course : Flow σ Resolution} (h : course.Ensures (Grants 0 0)) :
      course.Ensures (Grants (a.reconnections - a.reconnections)
        (a.unlockAttempted.toNat - a.unlockAttempted.toNat)) :=
    h.mono fun es o h => h.mono (Nat.zero_le _) (Nat.zero_le _)
  cases h with
  | killed =>
    exact ⟨rfl, .inl rfl, id, passing (Ensures.raise (Grants.of_idle (by simp) (by simp)))⟩
  | optional =>
    refine ⟨rfl, .inl rfl, id, passing (Grants.bind (log_idle _ _) fun _ => ?_)⟩
    exact Ensures.pure (Grants.of_idle (by simp) (by simp))
  | fallback =>
    refine ⟨rfl, .inl rfl, id, passing (Grants.bind (log_idle _ _) fun _ => ?_)⟩
    refine Grants.bind (Flow.inPart_emits ?_ (fun n w e _ => ?_) ?_) fun _ =>
      Ensures.pure (Grants.of_idle (by simp) (by simp))
    all_goals
      intro k _
      cases k <;> rfl
  | lowBattery => exact ⟨rfl, .inl rfl, id, passing (lowBattery_grants rules f step)⟩
  | unlock attempted =>
    -- The one unlock flow that the step may enter is used up.
    refine ⟨rfl, .inl rfl, fun _ => rfl, ?_⟩
    rw [attempted, Nat.sub_self]
    exact unlock_grants rules f step
  | connectionLost => exact ⟨rfl, .inl rfl, id, passing (connectionLost_grants rules f step)⟩
  | exhausted =>
    exact ⟨rfl, .inl rfl, id,
      passing (Grants.bind (log_idle _ _) fun _ => connectionLost_grants rules f step)⟩
  | reconnect limit =>
    refine ⟨rfl, .inr ⟨limit, rfl⟩, id, ?_⟩
    rw [Nat.sub_self, Nat.add_sub_cancel_left]
    exact reconnect_grants hact f step _
  | generic => exact ⟨rfl, .inl rfl, id, passing (generic_grants rules f step)⟩

end Recovery

/-! ## The replays of a step -/

/-- What one start of a step spends after it began, before another one is granted: `a` is
remembered where it begins, and `a'` where it ends. -/
structure Spends (limit : Int) (a a' : StepAttempt) (es : List Event) : Prop where
  start : count .start es = 0
  replay : count .replay es = 0
  funded : count .payment es ≤ count .resumption es + count .reconnection es
  dispatch : count .dispatch es ≤ count .reconnection es
  reconnection : count .reconnection es + a.reconnections ≤ a'.reconnections
  unlocking : count .unlocking es + a.unlockAttempted.toNat ≤ a'.unlockAttempted.toNat
  limit : a'.reconnections ≤ max a.reconnections limit.toNat

/-- What all starts of a step from `a` on keep to. -/
structure Keeps (limit : Int) (a : StepAttempt) (es : List Event) : Prop where
  balanced : Balanced a.replays a.replays a.replays es
  started : count .start es ≤ count .replay es + 1
  paid : count .replay es ≤ count .payment es
  funded : count .payment es ≤ count .resumption es + count .reconnection es
  dispatch : count .dispatch es ≤ count .reconnection es
  reconnection : count .reconnection es + a.reconnections ≤ max a.reconnections limit.toNat
  unlocking : count .unlocking es + a.unlockAttempted.toNat ≤ 1

section

variable {limit : Int} {a a' : StepAttempt} {es es' : List Event}

theorem Keeps.nil : Keeps limit a [] where
  balanced := trivial
  started := by simp
  paid := by simp
  funded := by simp
  dispatch := by simp
  reconnection := by
    simp only [count_nil]
    omega
  unlocking := by simpa using Bool.toNat_le _

theorem Keeps.prepend (h : ∀ e ∈ es, e.Idle) (h' : Keeps limit a es') :
    Keeps limit a (es ++ es') where
  balanced := by
    rw [balanced_append]
    refine ⟨balanced_of_count (count_of_idle h (by decide)) (count_of_idle h (by decide)), ?_⟩
    simpa [count_of_idle h] using h'.balanced
  started := by simpa [count_of_idle h] using h'.started
  paid := by simpa [count_of_idle h] using h'.paid
  funded := by
    have := h'.funded
    simp only [count_append, count_of_idle h, ne_eq, reduceCtorEq, not_false_eq_true]
    omega
  dispatch := by simpa [count_of_idle h] using h'.dispatch
  reconnection := by simpa [count_of_idle h] using h'.reconnection
  unlocking := by simpa [count_of_idle h] using h'.unlocking

theorem Keeps.of_idle (h : ∀ e ∈ es, e.Idle) : Keeps limit a es := by
  rw [← List.append_nil es]
  exact Keeps.nil.prepend h

theorem Keeps.continues {γ : Type} {o : Ending (StepAttempt ⊕ γ)} (h : ∀ e ∈ es, e.Idle)
    (h' : Ensures.Continues (fun a es (_ : Ending γ) => Keeps limit a es) a es' o) :
    Ensures.Continues (fun a es (_ : Ending γ) => Keeps limit a es) a (es ++ es') o := by
  rcases o with (_ | _) | _ | _
  · intro es'' o hes''
    rw [List.append_assoc]
    exact (h' es'' o hes'').prepend h
  all_goals exact Keeps.prepend h h'

/-- A start that grants no other one. -/
theorem Spends.last (h : Spends limit a a' es) (text : String) :
    Keeps limit a (.started text :: es) := by
  obtain ⟨hstart, hreplay, hfunded, hdispatch, hreconnection, hunlocking, hlimit⟩ := h
  have hbit := Bool.toNat_le a'.unlockAttempted
  refine ⟨⟨fun _ => ⟨rfl, rfl⟩, fun _ _ h => (by cases h), balanced_of_count hstart hreplay⟩,
    ?_, ?_, ?_, ?_, ?_, ?_⟩
  all_goals simp only [count_cons, Event.counts, Bool.toNat_false, Bool.toNat_true]
  all_goals omega

/-- A start that grants another one, from which on the limits are kept. -/
theorem Spends.next (h : Spends limit a a' es) (hreplays : a'.replays = a.replays)
    (hpayment : count .payment es = 1) (text text' : String)
    (h' : Keeps limit { a' with replays := a'.replays + 1 } es') :
    Keeps limit a
      (.started text :: (es ++ .replayed text' (a'.replays + 1) :: es')) := by
  obtain ⟨hstart, hreplay, hfunded, hdispatch, hreconnection, hunlocking, hlimit⟩ := h
  obtain ⟨hbalanced', hstarted', hpaid', hfunded', hdispatch', hreconnection', hunlocking'⟩ := h'
  dsimp only at hreconnection' hunlocking'
  refine ⟨⟨fun _ => ⟨rfl, rfl⟩, fun _ _ h => (by cases h), ?_⟩, ?_, ?_, ?_, ?_, ?_, ?_⟩
  · rw [balanced_append]
    refine ⟨balanced_of_count hstart hreplay, ?_⟩
    simp only [hstart, hreplay, hpayment, Event.counts, Bool.toNat_false, Bool.toNat_true,
      Nat.add_zero, Balanced]
    refine ⟨fun h => (by cases h), fun _ _ h => ?_, ?_⟩
    · cases h
      exact ⟨trivial, trivial, by rw [hreplays]⟩
    · rw [← hreplays]
      exact hbalanced'
  all_goals
    simp only [count_cons, count_append, Event.counts, Bool.toNat_false, Bool.toNat_true]
    omega

/-- Actions that were carried out, with nothing done about a failure. -/
theorem Spends.of_actions (h : ∀ e ∈ es, e.OfAction) : Spends limit a a es := by
  have hcount (k : Entry) : count k es = 0 := count_eq_zero fun e he => (h e he).counts k
  refine ⟨hcount _, hcount _, ?_, ?_, ?_, ?_, by omega⟩
  all_goals
    simp only [hcount]
    omega

/-- Actions of which one failed, and what recovery did about it. -/
theorem Spends.of_grants {o : Ending Resolution} {f : ActionFailure}
    (h : ∀ e ∈ es, e.OfAction)
    (h' : Grants (a'.reconnections - a.reconnections)
      (a'.unlockAttempted.toNat - a.unlockAttempted.toNat) es' o)
    (hlimit : a'.reconnections = a.reconnections ∨
      a.reconnections < limit ∧ a'.reconnections = a.reconnections + 1)
    (hunlock : a.unlockAttempted → a'.unlockAttempted) :
    Spends limit a a' (es ++ .failed f.id f.cause :: es') := by
  have hcount (k : Entry) : count k es = 0 := count_eq_zero fun e he => (h e he).counts k
  have hunlock' : a.unlockAttempted.toNat ≤ a'.unlockAttempted.toNat := by
    cases hu : a.unlockAttempted
    · exact Nat.zero_le _
    · exact Nat.le_of_eq (congrArg Bool.toNat (hunlock hu).symm)
  obtain ⟨hstart, hreplay, _, hfunded, hreconnection, hdispatch, hunlocking⟩ := h'
  refine ⟨?_, ?_, ?_, ?_, ?_, ?_, by omega⟩
  all_goals
    simp only [count_append, count_cons, hcount, Event.counts, Bool.toNat_false]
    omega

end

namespace Workflow

variable {wf : Workflow σ} {runSteps : List Step → Flow σ Unit}

/-- An action dispatches once itself; whatever else it does is in its substeps. -/
theorem action_dispatches (runSteps : List Step → Flow σ Unit) (table : ActionTable σ)
    (ctx : Context σ) (a : Action) :
    (Flow.action runSteps table ctx a).Ensures fun es _ =>
      count .dispatch (es.map (.within .reconnect)) ≤ 1 := by
  have signals (es : List Signal) :
      count .dispatch (es.map (Event.within .reconnect ∘ Event.handler)) = 0 := by
    refine count_eq_zero fun e he => ?_
    obtain ⟨s, _, rfl⟩ := List.mem_map.mp he
    rfl
  have substeps (es : List Event) (h : ∀ e ∈ es, ∃ e', e = .within .substeps e' ∨
      e = .entered .substeps ∨ e = .left .substeps) :
      count .dispatch (es.map (.within .reconnect)) = 0 := by
    refine count_eq_zero fun e he => ?_
    obtain ⟨e, hmem, rfl⟩ := List.mem_map.mp he
    rcases h e hmem with ⟨_, rfl | rfl | rfl⟩ <;> rfl
  have calling (d : Dispatch) : (Flow.callHandler table ctx d).Ensures fun es _ =>
      count .dispatch (es.map (.within .reconnect)) ≤ 1 := by
    refine Flow.callHandler_ensures (R := fun _ _ => True) (fun _ _ _ _ => trivial) ?_ ?_ ?_ ?_ ?_
    all_goals
      intros
      simp [signals, Event.counts]
  unfold Flow.action
  split
  · exact Flow.refuse_ensures (fun _ _ => by simp) fun _ => by simp
  next d _ =>
  refine Ensures.bind (P := fun es _ => count .dispatch (es.map (.within .reconnect)) ≤ 1)
    (Ensures.rescue (calling d) (fun es _ h => h) (fun es e h => Ensures.raise (by simpa using h))
      fun es h => h)
    (fun es steps h => ?_) (fun es e h => h) fun es h => h
  split
  · exact Ensures.pure (by simpa using h)
  · have nested : (Flow.inPart .substeps (runSteps steps)).Emits fun e =>
        ∃ e', e = .within .substeps e' ∨ e = .entered .substeps ∨ e = .left .substeps :=
      Flow.inPart_emits ⟨.entered .substeps, .inr (.inl rfl)⟩ (fun n w e _ => ⟨e, .inl rfl⟩)
        ⟨.entered .substeps, .inr (.inr rfl)⟩
    intro n w
    rw [List.map_append, count_append, substeps _ (nested n w)]
    exact h

theorem rules_dispatches (wf : Workflow σ) (runSteps : List Step → Flow σ Unit) (a : Action) :
    ((wf.rules runSteps).actions [a]).Ensures fun es _ =>
      count .dispatch (es.map (.within .reconnect)) ≤ 1 := by
  refine Ensures.bind (action_dispatches runSteps wf.table wf.ctx a) (fun es _ h => ?_)
    (fun es e h => h) fun es h => h
  exact Ensures.pure (by simpa using h)

theorem start_keeps (s : Step) (a : StepAttempt) :
    (wf.start runSteps s a).Ensures
      (Ensures.Continues (fun a es (_ : Ending Unit) => Keeps wf.reconnections a es) a) := by
  refine Ensures.bind (P := fun es _ => ∀ e ∈ es, e.Idle) ?pausing (fun pre _ hpre => ?_)
    (fun pre e hpre => Keeps.of_idle hpre) fun pre hpre => Keeps.of_idle hpre
  case pausing =>
    exact Ensures.mono (Flow.ofRecovery_emits _) fun es o h e he => by
      obtain ⟨s, rfl⟩ := h e he
      exact Event.idle_recovery s
  refine Ensures.mono (P := Ensures.Continues (fun a es _ => Keeps wf.reconnections a es) a) ?_
    fun es o h => Keeps.continues hpre h
  refine Ensures.ofFallible_bind (fun applies _ => ?_) fun e _ => Keeps.nil
  split
  · refine Ensures.ofFallible_bind (fun text _ => ?_) fun e _ => Keeps.nil
    refine Ensures.emit_bind (Flow.failureOf_bind
      (Flow.actions_emits runSteps wf.table wf.ctx s.actions) (fun es _ h => ?_)
      (fun es id c h => ?_) (fun es e _ h => ?_) fun es h => ?_)
    · exact Ensures.pure (by simpa [Ensures.Continues] using (Spends.of_actions h).last text)
    · obtain ⟨course, a', hcourse, heq⟩ :=
        Recovery.handle_course (wf.rules runSteps) ⟨id, c⟩ s a
      obtain ⟨hreplays, hlimit, hunlock, hgrants⟩ :=
        Recovery.course_grants (rules_dispatches wf runSteps) hcourse
      -- What the start has spent by now, whatever becomes of the step.
      have spends {es' : List Event} {o : Ending Resolution}
          (h' : Grants (a'.reconnections - a.reconnections)
            (a'.unlockAttempted.toNat - a.unlockAttempted.toNat) es' o) :
          Spends wf.reconnections a a' (es ++ .failed id c :: es') :=
        Spends.of_grants (f := ⟨id, c⟩) h h' hlimit hunlock
      dsimp only
      rw [heq]
      simp only [bind_assoc, pure_bind]
      refine Ensures.emit_bind (Ensures.bind hgrants (fun rec resolution h' => ?_)
        (fun rec e h' => (spends h').last text) fun rec h' => (spends h').last text)
      cases resolution with
      | done => exact Ensures.pure (by simpa [Ensures.Continues] using (spends h').last text)
      | replay =>
        refine Ensures.ofFallible_bind (fun text' _ => ?_) fun e _ => ?_
        · refine Ensures.emit_bind (Ensures.pure ?_)
          intro es' o hes'
          have hpaid : count .payment (es ++ .failed id c :: rec) = 1 := by
            have hes : count .payment es = 0 := count_eq_zero fun e he => (h e he).counts _
            rw [count_append, count_cons, hes, h'.payment rfl]
            rfl
          simpa using (spends h').next hreplays hpaid text text' hes'
        · simpa [Ensures.Continues] using (spends h').last text
    · exact (Spends.of_actions h).last text
    · exact (Spends.of_actions h).last text
  · refine Ensures.ofFallible_bind (fun text _ => ?_) fun e _ => Keeps.nil
    refine Ensures.emit_bind (Ensures.pure (Keeps.of_idle ?_))
    simp only [List.mem_singleton, forall_eq]
    intro k _
    cases k <;> rfl

theorem step_keeps (wf : Workflow σ) (runSteps : List Step → Flow σ Unit) (s : Step) :
    (wf.step runSteps s).Ensures fun es _ => Keeps wf.reconnections {} es :=
  Ensures.repeatFrom (fun _ => Keeps.nil) (start_keeps s) {}

/-- The accounts of a step. Whenever its actions are started, the starts are one more than the
replays that were granted, and every payment was for one of these. Whenever another start is
granted, there is one payment that was for none before. Over the whole step the reconnecting action
is dispatched no more often than the limit says, the unlock flow is entered at most once, and so the
answers of the user bound the starts. -/
theorem replays_paid (wf : Workflow σ) (runSteps : List Step → Flow σ Unit) (s : Step) (n : Nat)
    (w : σ) :
    let es := (wf.step runSteps s n w).events
    (∀ before text after, es = before ++ .started text :: after →
      count .start (before ++ [.started text]) = 1 + count .replay before ∧
      count .payment before = count .replay before) ∧
    (∀ before text k after, es = before ++ .replayed text k :: after →
      k = count .replay before + 1 ∧ count .payment before = count .replay before + 1) ∧
    (count .dispatch es : Int) ≤ max 0 wf.reconnections ∧
    count .unlocking es ≤ 1 ∧
    (count .start es : Int) ≤ 1 + max 0 wf.reconnections + count .resumption es := by
  intro es
  have hkeeps : Keeps wf.reconnections {} es := step_keeps wf runSteps s n w
  obtain ⟨hbalanced, hstarted, hpaid, hfunded, hdispatch, hreconnection, hunlocking⟩ := hkeeps
  dsimp only at hbalanced hreconnection hunlocking
  refine ⟨fun before text after hes => ?_, fun before text k after hes => ?_, ?_, ?_, ?_⟩
  · rw [hes, balanced_append] at hbalanced
    obtain ⟨hs, hp⟩ := hbalanced.2.1 rfl
    simp only [Nat.zero_add] at hs hp
    simp only [count_append, count_cons, count_nil, hs, Event.counts, Bool.toNat_true]
    exact ⟨by omega, hp⟩
  · rw [hes, balanced_append] at hbalanced
    obtain ⟨-, hp, hk⟩ := hbalanced.2.2.1 text k rfl
    simp only [Nat.zero_add] at hp hk
    exact ⟨hk, hp⟩
  · omega
  · omega
  · omega

end Workflow

end Reflash
