import Reflash.Proofs.Escape
import Reflash.Proofs.Truthful

set_option autoImplicit false

/-! # The order of calls where nothing fails

Where no handler fails, a list of steps is no more than a list of calls: those of the actions of
each step whose condition holds, each followed by the calls of the steps that it returned. This
expansion is written down with no regard to how steps are run (`Workflow.expandTo`). What is run are
the calls of the expansion, in order, and nothing is recovered (`Workflow.run_expands`); only a list
that cannot be expanded within the budget is not run to its end. -/

namespace Reflash

open Run

variable {σ α β : Type}

/-! ## Expansions -/

/-- A call of a handler: namespace, verb and payload. -/
abbrev Call := String × String × Value

/-- The call that an event is, at whatever depth. -/
def Event.call? : Event → Option Call
  | dispatched ns verb payload => some (ns, verb, payload)
  | within _ e => e.call?
  | _ => none

/-- Expands the elements of a list in order, each one in the world that those before it leave. -/
def expandEach (expand : α → σ → Option (List Call × σ)) : List α → σ → Option (List Call × σ)
  | [], w => some ([], w)
  | x :: xs, w => do
    let (calls, w) ← expand x w
    let (calls', w) ← expandEach expand xs w
    return (calls ++ calls', w)

namespace Workflow

/-- The expansion of an action whose handler gets the budget `n`: the call of the handler, and then
the expansion of the steps that it returns. -/
def expandAction (wf : Workflow σ) (n : Nat) (expandSteps : List Step → σ → Option (List Call × σ))
    (a : Action) (w : σ) : Option (List Call × σ) := do
  let d ← a.dispatch.toOption
  let handler ← wf.table.handler? d.id
  match handler d.payload wf.ctx n w with
  | ⟨.returned v, _, w⟩ =>
    let steps ← (Flow.substepsOf d v).toOption
    let (calls, w) ← if steps.isEmpty then some ([], w) else expandSteps steps w
    return ((d.ns, d.verb, d.payload) :: calls, w)
  | _ => none

/-- The expansion of a step: that of its actions, if its condition holds. -/
def expandStep (wf : Workflow σ) (n : Nat) (expandSteps : List Step → σ → Option (List Call × σ))
    (s : Step) (w : σ) : Option (List Call × σ) :=
  match wf.ctx.host.pause n w with
  | ⟨.returned (), _, w⟩ => do
    let applies ← (Condition.evaluate s.condition wf.ctx.settings.data).toOption
    if applies then expandEach (wf.expandAction n expandSteps) s.actions w
    else return ([], w)
  | _ => none

/-- The expansion of steps: the calls in order, and the world after the last one. It is there if the
steps that handlers return are nested no deeper than `depth` says. -/
def expandTo (wf : Workflow σ) (n : Nat) : Nat → List Step → σ → Option (List Call × σ)
  | 0, _, _ => none
  | depth + 1, steps, w => expandEach (wf.expandStep n (wf.expandTo n depth)) steps w

/-! ## Steps that cannot fail -/

/-- The step can be judged and shown, and its actions are registered. -/
def Sound (wf : Workflow σ) (s : Step) : Prop :=
  (s.Validated ∧ s.Legible) ∧
    ∀ a ∈ s.actions, ∃ d handler, a.dispatch = .ok d ∧ wf.table.handler? d.id = some handler

/-- Handlers do not fail, and return nothing or a list of sound steps; pauses just pass. -/
structure Compliant (wf : Workflow σ) : Prop where
  returns : ∀ id handler payload, wf.table.handler? id = some handler →
    (handler payload wf.ctx).Ensures fun _ o => (∀ c, o ≠ .raised c) ∧
      ∀ v, o = .returned v → v.truth →
        ∀ path, ∃ ss, Step.listOf path v = .ok ss ∧ ∀ s ∈ ss, wf.Sound s
  pauses : wf.ctx.host.pause.Ensures fun es o =>
    (∀ c, o ≠ .raised c) ∧ ∀ s ∈ es, s.question? = none

end Workflow

/-- The event says that something went wrong: a failure, what recovery does about it, or an early
end. -/
def Event.troubled : Event → Bool
  | raised _ | failed .. | answered .. | unanswered .. | replayed .. | ended _ => true
  | recovery s => s.question?.isSome
  | entered part | left part => part ≠ .substeps
  | within part e => part ≠ .substeps || e.troubled
  | handler _ | skipped _ | started _ | dispatched .. => false

/-! ## Runs that follow an expansion -/

/-- What is left of a run agrees with an expansion: it made the calls, without trouble, and ended in
the same world; or it is not finished, as there is no expansion. -/
inductive Follows : Trail Event σ Unit → Option (List Call × σ) → Prop
  | through {es : List Event} {w : σ} (calm : ∀ e ∈ es, e.troubled = false) :
    Follows ⟨.returned (), es, w⟩ (some (es.filterMap Event.call?, w))
  | short {es : List Event} {w : σ} : Follows ⟨.unfinished, es, w⟩ none

namespace Follows

variable {n : Nat}

theorem bind {r r' : Flow σ Unit} {x x' : σ → Option (List Call × σ)} (w : σ)
    (h : Follows (r n w) (x w)) (h' : ∀ w, Follows (r' n w) (x' w)) :
    Follows ((r >>= fun _ => r') n w) (do
      let (calls, w) ← x w
      let (calls', w) ← x' w
      return (calls ++ calls', w)) := by
  rw [bind_apply]
  generalize r n w = trail at h
  generalize x w = expansion at h
  cases h with
  | short => exact .short
  | @through es w calm =>
    have h := h' w
    simp only [Option.bind_eq_bind, Option.bind_some]
    generalize r' n w = trail at h
    generalize x' w = expansion at h
    cases h with
    | short => exact .short
    | @through es' w' calm' =>
      have h := through (w := w') (List.forall_mem_append.mpr ⟨calm, calm'⟩)
      rwa [List.filterMap_append] at h

theorem each {f : α → Flow σ Unit} {expand : α → σ → Option (List Call × σ)} {xs : List α}
    (h : ∀ x ∈ xs, ∀ w, Follows (f x n w) (expand x w)) (w : σ) :
    Follows (Run.each f xs n w) (expandEach expand xs w) := by
  induction xs generalizing w with
  | nil => exact .through (by simp)
  | cons x xs ih => exact bind w (h x (by simp) w) (ih fun y hy => h y (by simp [hy]))

/-- Something happens before that is no call and no trouble. -/
theorem prepend {es es' : List Event} {o : Ending Unit} {w : σ}
    {expansion : Option (List Call × σ)} (h : Follows ⟨o, es', w⟩ expansion)
    (hcalls : es.filterMap Event.call? = []) (calm : ∀ e ∈ es, e.troubled = false) :
    Follows ⟨o, es ++ es', w⟩ expansion := by
  cases h with
  | short => exact .short
  | through calm' =>
    have h := through (w := w) (List.forall_mem_append.mpr ⟨calm, calm'⟩)
    rwa [List.filterMap_append, hcalls, List.nil_append] at h

theorem cons {e : Event} {es : List Event} {o : Ending Unit} {w : σ}
    {expansion : Option (List Call × σ)} (h : Follows ⟨o, es, w⟩ expansion) (hcall : e.call? = none)
    (calm : e.troubled = false) : Follows ⟨o, e :: es, w⟩ expansion := by
  have hcalls : [e].filterMap Event.call? = [] := by simp [hcall]
  exact h.prepend hcalls (by simpa using calm)

/-- A call of a handler happens before. -/
theorem call {d : Dispatch} {signals : List Signal} {es : List Event} {o : Ending Unit} {w : σ}
    {expansion : Option (List Call × σ)} (h : Follows ⟨o, es, w⟩ expansion) :
    Follows ⟨o, .dispatched d.ns d.verb d.payload :: signals.map .handler ++ es, w⟩
      (do let (calls, w) ← expansion; return ((d.ns, d.verb, d.payload) :: calls, w)) := by
  have hnone : (signals.map Event.handler).filterMap Event.call? = [] := by
    simp [Event.call?]
  have calm : ∀ e ∈ .dispatched d.ns d.verb d.payload :: signals.map Event.handler,
      e.troubled = false := by
    simp [Event.troubled]
  cases h with
  | short => exact .short
  | through calm' =>
    have h := through (w := w) (List.forall_mem_append.mpr ⟨calm, calm'⟩)
    rwa [List.filterMap_append, List.filterMap_cons, hnone] at h

/-- The substeps of an action make their calls, at a greater depth. -/
theorem inPart {flow : Flow σ Unit} {expansion : Option (List Call × σ)} {w : σ}
    (h : Follows (flow n w) expansion) : Follows (Flow.inPart .substeps flow n w) expansion := by
  have hcalls (es : List Event) :
      (es.map (Event.within .substeps)).filterMap Event.call? = es.filterMap Event.call? :=
    List.filterMap_map ..
  have hinside : Follows (Flow.inside .substeps flow n w) expansion := by
    unfold Flow.inside Run.mapEvents
    generalize flow n w = trail at h
    cases h with
    | short => exact .short
    | @through es w' calm =>
      rw [← hcalls]
      exact .through (by simpa [Event.troubled] using calm)
  have hleft (w : σ) : Follows ((Run.emit (.left .substeps) : Flow σ Unit) n w) (some ([], w)) :=
    .through (by simp [Event.troubled])
  have h := bind (x := fun _ => expansion) w hinside hleft
  have hexpansion : (do
      let (calls, w) ← expansion
      let (calls', w) ← some (([] : List Call), w)
      return (calls ++ calls', w)) = expansion := by
    cases expansion <;> simp
  rw [hexpansion] at h
  unfold Flow.inPart
  rw [bind_apply]
  exact h.cons rfl rfl

/-- Nothing is done about the failure of a run that does not fail. -/
theorem failureOf_bind {flow : Flow σ Unit} {next : Option (String × Fault) → Flow σ Unit}
    {expansion : Option (List Call × σ)} {w : σ} (h : Follows (flow n w) expansion)
    (hnext : next none = Pure.pure ()) :
    Follows ((Flow.failureOf flow >>= next) n w) expansion := by
  rw [bind_apply, Flow.failureOf_apply]
  generalize flow n w = trail at h
  cases h with
  | short => exact .short
  | @through es w calm =>
    dsimp only
    rw [hnext]
    show Follows ⟨.returned (), es ++ [], w⟩ _
    rw [List.append_nil]
    exact .through calm

end Follows

namespace Flow

variable {table : ActionTable σ} {ctx : Context σ} {d : Dispatch} {handler : Handler σ} {n : Nat}
  {w w' : σ} {signals : List Signal}

/-- What is left of the call of a handler that returned steps. -/
theorem callHandler_returned (hhandler : table.handler? d.id = some handler) {v : Value}
    (hrun : handler d.payload ctx n w = ⟨.returned v, signals, w'⟩) {ss : List Step}
    (hss : substepsOf d v = .ok ss) :
    callHandler table ctx d n w =
      ⟨.returned ss, .dispatched d.ns d.verb d.payload :: signals.map .handler, w'⟩ := by
  rw [callHandler_apply hhandler, hrun]
  simp [hss, Run.ofFallible, Run.pure, Trail.after, called]

theorem callHandler_unfinished (hhandler : table.handler? d.id = some handler)
    (hrun : handler d.payload ctx n w = ⟨.unfinished, signals, w'⟩) :
    callHandler table ctx d n w =
      ⟨.unfinished, .dispatched d.ns d.verb d.payload :: signals.map .handler, w'⟩ := by
  rw [callHandler_apply hhandler, hrun]
  rfl

end Flow

namespace Workflow

variable {wf : Workflow σ} (hwf : wf.Compliant) {n : Nat} {runSteps : List Step → Flow σ Unit}
  {expandSteps : List Step → σ → Option (List Call × σ)}
  (hsteps : ∀ ss, (∀ s ∈ ss, wf.Sound s) → ∀ w, Follows (runSteps ss n w) (expandSteps ss w))
include hwf hsteps

theorem action_follows {a : Action} {d : Dispatch} {handler : Handler σ} (hd : a.dispatch = .ok d)
    (hhandler : wf.table.handler? d.id = some handler) (w : σ) :
    Follows (Flow.action runSteps wf.table wf.ctx a n w) (wf.expandAction n expandSteps a w) := by
  obtain ⟨hfine, hsteps'⟩ := hwf.returns d.id handler d.payload hhandler n w
  rw [Flow.action_eq hd, bind_apply]
  unfold expandAction
  rcases hrun : handler d.payload wf.ctx n w with ⟨v | c | _, signals, w'⟩
  · rw [hrun] at hsteps'
    obtain ⟨ss, hss, hsound⟩ : ∃ ss, Flow.substepsOf d v = .ok ss ∧ ∀ s ∈ ss, wf.Sound s := by
      unfold Flow.substepsOf
      by_cases hv : v.truth
      · rw [if_pos hv]
        exact hsteps' v rfl hv _
      · rw [if_neg hv]
        exact ⟨[], rfl, by simp⟩
    unfold Run.rescue
    rw [Flow.callHandler_returned hhandler hrun hss]
    simp only [hd, Except.toOption, hhandler, hss, hrun, Option.bind_eq_bind, Option.bind_some]
    have hnothing : Follows ⟨.returned (), [], w'⟩ (some ([], w')) := .through (by simp)
    split
    · exact Follows.call hnothing
    · exact Follows.call (Follows.inPart (hsteps ss hsound w'))
  · rw [hrun] at hfine
    exact absurd rfl (hfine c)
  · unfold Run.rescue
    rw [Flow.callHandler_unfinished hhandler hrun]
    simp only [hd, Except.toOption, hhandler, hrun, Option.bind_eq_bind, Option.bind_some]
    exact .short

theorem actions_follows {s : Step} (hs : wf.Sound s) (w : σ) :
    Follows (Flow.actions runSteps wf.table wf.ctx s.actions n w)
      (expandEach (wf.expandAction n expandSteps) s.actions w) := by
  refine Follows.each (fun a ha w => ?_) w
  obtain ⟨d, handler, hd, hhandler⟩ := hs.2 a ha
  exact action_follows hwf hsteps hd hhandler w

variable (runSteps) in
omit hwf hsteps in
/-- A start of a step that can be judged and shown. -/
theorem start_eq {s : Step} {applies : Bool} {text : String}
    (hc : Condition.evaluate s.condition wf.ctx.settings.data = .ok applies)
    (hs : s.describe = .ok text) (a : StepAttempt) :
    ∃ next, next none = (Pure.pure (.inr ()) : Flow σ (StepAttempt ⊕ Unit)) ∧
      wf.start runSteps s a = Flow.ofRecovery wf.ctx.host.pause >>= fun _ =>
        if applies then Run.emit (.started text) >>= fun _ =>
          Flow.failureOf (Flow.actions runSteps wf.table wf.ctx s.actions) >>= next
        else Run.emit (.skipped text) >>= fun _ => Pure.pure (.inr ()) := by
  unfold start
  rw [hc, hs]
  cases applies with
  | true => exact ⟨_, rfl, rfl⟩
  | false => exact ⟨fun _ => Pure.pure (.inr ()), rfl, rfl⟩

/-- A step is started once, if its condition holds. -/
theorem step_follows (hn : n ≠ 0) {s : Step} (hs : wf.Sound s) (w : σ) :
    Follows (wf.step runSteps s n w) (wf.expandStep n expandSteps s w) := by
  obtain ⟨hvalid, hlegible⟩ := hs.1
  obtain ⟨text, htext⟩ := hlegible.shown
  obtain ⟨applies, hc⟩ := Step.evaluate_of_legible hvalid hlegible wf.ctx.settings.data
  obtain ⟨next, hnext, hstart⟩ := start_eq runSteps hc htext {}
  obtain ⟨k, rfl⟩ : ∃ k, n = k + 1 := ⟨n - 1, by omega⟩
  obtain ⟨again, hagain, hstep⟩ : ∃ again : StepAttempt ⊕ Unit → Flow σ Unit,
      again (.inr ()) = Pure.pure () ∧
        wf.step runSteps s (k + 1) w = (wf.start runSteps s {} >>= again) (k + 1) w :=
    ⟨_, rfl, rfl⟩
  obtain ⟨hfine, hquiet⟩ := hwf.pauses (k + 1) w
  rw [hstep, hstart, bind_assoc, bind_apply]
  unfold Flow.ofRecovery Run.mapEvents expandStep
  rcases hrun : wf.ctx.host.pause (k + 1) w with ⟨⟨⟩ | c | _, signals, w'⟩
  · rw [hrun] at hquiet
    simp only [hc, Except.toOption, Option.bind_eq_bind, Option.bind_some]
    refine Follows.prepend ?_ (by simp [Event.call?]) (by simpa [Event.troubled] using hquiet)
    cases applies with
    | true =>
      have hacts := actions_follows hwf hsteps hs w'
      have hthrough : (next none >>= again) = Pure.pure () := by
        rw [hnext, pure_bind, hagain]
      have h : Follows ((Flow.failureOf (Flow.actions runSteps wf.table wf.ctx s.actions) >>=
          fun failed => next failed >>= again) (k + 1) w') _ := hacts.failureOf_bind hthrough
      rw [if_pos rfl, if_pos rfl, bind_assoc, bind_apply, bind_assoc]
      exact h.cons rfl rfl
    | false =>
      have h : Follows ((Pure.pure (.inr ()) >>= again) (k + 1) w') (some ([], w')) := by
        rw [pure_bind, hagain]
        exact .through (by simp)
      rw [if_neg (by simp), if_neg (by simp), bind_assoc, bind_apply]
      exact h.cons rfl rfl
  · rw [hrun] at hfine
    exact absurd rfl (hfine c)
  · exact .short

omit hsteps

theorem runStepsTo_follows (hn : n ≠ 0) (depth : Nat) {ss : List Step} (hss : ∀ s ∈ ss, wf.Sound s)
    (w : σ) : Follows (wf.runStepsTo depth ss n w) (wf.expandTo n depth ss w) := by
  induction depth generalizing ss w with
  | zero => exact .short
  | succ depth ih =>
    exact Follows.each (fun s hs => step_follows hwf (fun _ h => ih h) hn (hss s hs)) w

theorem runSteps_follows {ss : List Step} (hss : ∀ s ∈ ss, wf.Sound s) (w : σ) :
    Follows (wf.runSteps ss n w) (wf.expandTo n n ss w) := by
  cases n with
  | zero => exact .short
  | succ n => exact runStepsTo_follows hwf n.succ_ne_zero (n + 1) hss w

omit hwf

/-! ## Deeper expansions -/

/-- What can be expanded is expanded the same if more can be expanded. -/
def Extends (expand expand' : α → σ → Option (List Call × σ)) : Prop :=
  ∀ x w r, expand x w = some r → expand' x w = some r

theorem expandEach_extends {expand expand' : α → σ → Option (List Call × σ)}
    (h : Extends expand expand') : Extends (expandEach expand) (expandEach expand') := by
  intro xs
  induction xs with
  | nil => exact fun w r hr => hr
  | cons x xs ih =>
    intro w r hr
    simp only [expandEach, Option.bind_eq_bind, Option.bind_eq_some_iff] at hr ⊢
    obtain ⟨first, hfirst, rest, hrest, hr⟩ := hr
    exact ⟨first, h x w first hfirst, rest, ih _ rest hrest, hr⟩

theorem expandStep_extends {expandSteps expandSteps' : List Step → σ → Option (List Call × σ)}
    (h : Extends expandSteps expandSteps') :
    Extends (wf.expandStep n expandSteps) (wf.expandStep n expandSteps') := by
  have action : Extends (wf.expandAction n expandSteps) (wf.expandAction n expandSteps') := by
    intro a w r hr
    simp only [expandAction, Option.bind_eq_bind, Option.bind_eq_some_iff] at hr ⊢
    obtain ⟨d, hd, handler, hhandler, hr⟩ := hr
    refine ⟨d, hd, handler, hhandler, ?_⟩
    generalize handler d.payload wf.ctx n w = trail at hr ⊢
    rcases trail with ⟨v | c | _, es, w'⟩
    · simp only [Option.bind_eq_some_iff] at hr ⊢
      obtain ⟨ss, hss, hr⟩ := hr
      refine ⟨ss, hss, ?_⟩
      by_cases hempty : ss.isEmpty
      · rw [if_pos hempty] at hr ⊢
        exact hr
      · rw [if_neg hempty] at hr ⊢
        obtain ⟨rest, hrest, hr⟩ := Option.bind_eq_some_iff.mp hr
        exact Option.bind_eq_some_iff.mpr ⟨rest, h ss w' rest hrest, hr⟩
    all_goals cases hr
  intro s w r hr
  unfold expandStep at hr ⊢
  generalize wf.ctx.host.pause n w = trail at hr ⊢
  rcases trail with ⟨⟨⟩ | c | _, es, w'⟩
  · simp only [Option.bind_eq_bind, Option.bind_eq_some_iff] at hr ⊢
    obtain ⟨applies, happlies, hr⟩ := hr
    refine ⟨applies, happlies, ?_⟩
    cases applies with
    | true => exact expandEach_extends action s.actions w' r hr
    | false => exact hr
  all_goals cases hr

theorem expandTo_extends (depth : Nat) :
    Extends (wf.expandTo n depth) (wf.expandTo n (depth + 1)) := by
  induction depth with
  | zero => exact fun _ _ _ h => by cases h
  | succ depth ih => exact expandEach_extends (expandStep_extends ih)

theorem expandTo_mono {depth depth' : Nat} (h : depth ≤ depth') :
    Extends (wf.expandTo n depth) (wf.expandTo n depth') := by
  induction h with
  | refl => exact fun _ _ _ h => h
  | step _ ih => exact fun ss w r hr => expandTo_extends _ ss w r (ih ss w r hr)

/-- Where nothing can fail, what is run is the expansion. Steps that have one are run to their end:
the handlers are called as the expansion says, each call once and in that order, and nothing is
recovered, asked or replaced by a fallback. Steps that cannot be expanded within the budget are the
only ones that are not. -/
theorem run_expands {wf : Workflow σ} (hwf : wf.Compliant) {steps : List Step}
    (hsteps : ∀ s ∈ steps, wf.Sound s) (n : Nat) (w : σ) :
    (∀ depth calls w', depth ≤ n → wf.expandTo n depth steps w = some (calls, w') →
      (wf.run steps n w).ending = .returned true ∧ (wf.run steps n w).world = w' ∧
      (wf.run steps n w).events.filterMap Event.call? = calls ∧
      ∀ e ∈ (wf.run steps n w).events, e.troubled = false) ∧
    (wf.expandTo n n steps w = none → (wf.run steps n w).ending = .unfinished) := by
  have hfollows : Follows (wf.runSteps steps n w) (wf.expandTo n n steps w) :=
    runSteps_follows hwf hsteps w
  refine ⟨fun depth calls w' hdepth hexpand => ?_, fun hnone => ?_⟩
  · rw [expandTo_mono hdepth steps w _ hexpand] at hfollows
    unfold run settle Run.rescue
    rw [bind_apply]
    generalize wf.runSteps steps n w = trail at hfollows
    cases hfollows with
    | @through es _ calm =>
      have hnil : es ++ [] = es := List.append_nil es
      exact ⟨rfl, rfl, congrArg _ hnil, by simpa [Pure.pure, Run.pure] using calm⟩
  · rw [hnone] at hfollows
    unfold run settle Run.rescue
    rw [bind_apply]
    generalize wf.runSteps steps n w = trail at hfollows
    cases hfollows
    rfl

/-- The handlers of a plain workflow are those of its verbs. -/
theorem plain_handler {decision : Decision} {verbs : Verbs σ} {id : String} {handler : Handler σ}
    (h : (Workflow.plain decision verbs).table.handler? id = some handler) :
    ∃ verb, (verb, some handler) ∈ verbs := by
  simp only [ActionTable.handler?, Workflow.plain, List.lookup_cons, List.lookup_nil] at h
  split at h
  · rw [Option.bind_some, Option.join_eq_some_iff] at h
    obtain ⟨before, after, hverbs, -⟩ := List.lookup_eq_some_iff.mp h
    exact ⟨(ActionTable.splitId id).2, by simp [hverbs]⟩
  · cases h

/-- A handler returns a step, and that step is run before the next action of the same step. A step
whose condition does not hold makes no call. -/
theorem nested_steps_expand :
    let inner : Value := .ofFields [("actions", .list [.ofFields [("t:inner", .int 1)]])]
    let wf : Workflow Unit := .plain {}
      [("outer", some fun _ _ => return .list [inner]), ("inner", some fun _ _ => return .null)]
    let steps : List Step := [
      { actions := [.named "t:outer", .named "t:inner" (.int 2)] },
      { actions := [.named "t:outer"], condition := .ofFields [("var", .str "wipe")] }]
    (wf.run steps 2 ()).ending = .returned true ∧
      (wf.run steps 2 ()).events.filterMap Event.call? =
        [("t", "outer", .null), ("t", "inner", .int 1), ("t", "inner", .int 2)] ∧
      ∀ e ∈ (wf.run steps 2 ()).events, e.troubled = false := by
  intro inner wf steps
  have hcalls : wf.expandTo 2 2 steps () =
      some ([("t", "outer", .null), ("t", "inner", .int 1), ("t", "inner", .int 2)], ()) := by cbv
  have registered (payload : Value) (verb : String) (hverb : verb = "outer" ∨ verb = "inner") :
      ∃ d handler, (Action.named ("t:" ++ verb) payload).dispatch = .ok d ∧
        wf.table.handler? d.id = some handler := by
    rcases hverb with rfl | rfl
    · exact ⟨⟨"t:outer", "t", "outer", payload⟩, _, by cbv, by cbv⟩
    · exact ⟨⟨"t:inner", "t", "inner", payload⟩, _, by cbv, by cbv⟩
  let nested : Step := {
    actions := [.named "t:inner" (.int 1)]
    raw := [(.str "actions", .list [.ofFields [("t:inner", .int 1)]])] }
  have hnested : wf.Sound nested := by
    refine ⟨Step.Legible.unconditional rfl (by cbv : nested.describe = .ok _), fun a ha => ?_⟩
    cases List.mem_singleton.mp ha
    exact registered (.int 1) "inner" (.inr rfl)
  have hread (path : String) : Step.listOf path (.list [inner]) = .ok [nested] := by cbv
  have hcompliant : wf.Compliant := by
    constructor
    · intro id handler payload h n w
      obtain ⟨verb, hverb⟩ := plain_handler h
      simp only [List.mem_cons, List.not_mem_nil, or_false] at hverb
      rcases hverb with heq | heq <;> cases heq
      · -- The outer handler returns the inner step.
        refine ⟨by rintro c ⟨⟩, ?_⟩
        rintro v ⟨⟩ - path
        refine ⟨[nested], hread path, fun s hs => ?_⟩
        cases List.mem_singleton.mp hs
        exact hnested
      · -- The inner one returns nothing.
        refine ⟨by rintro c ⟨⟩, ?_⟩
        rintro v ⟨⟩ ⟨⟩
    · refine fun n w => ⟨by rintro c ⟨⟩, ?_⟩
      rintro s ⟨⟩
  have hsound : ∀ s ∈ steps, wf.Sound s := by
    intro s hs
    simp only [steps, List.mem_cons, List.not_mem_nil, or_false] at hs
    rcases hs with rfl | rfl
    · refine ⟨Step.Legible.unconditional rfl (by cbv : Step.describe _ = .ok _), fun a ha => ?_⟩
      simp only [List.mem_cons, List.not_mem_nil, or_false] at ha
      rcases ha with rfl | rfl
      · exact registered .null "outer" (.inl rfl)
      · exact registered (.int 2) "inner" (.inr rfl)
    · have hvalid : Step.Validated
          { actions := [.named "t:outer"], condition := .ofFields [("var", .str "wipe")] } :=
        ⟨"step", by cbv⟩
      refine ⟨⟨hvalid, fun x hx => ?_, _, by cbv⟩, fun a ha => ?_⟩
      · have hvars : (Condition.read (.ofFields [("var", .str "wipe")])).vars = [.str "wipe"] := by
          cbv
        rw [hvars] at hx
        cases List.mem_singleton.mp hx
        rfl
      · cases List.mem_singleton.mp ha
        exact registered .null "outer" (.inl rfl)
  obtain ⟨hending, -, hevents, hcalm⟩ :=
    (run_expands hcompliant hsound 2 ()).1 2 _ _ (Nat.le_refl 2) hcalls
  exact ⟨hending, hevents, hcalm⟩

/-- A step whose payload cannot be shown is refused before its action is called, though nothing else
is wrong with it. -/
theorem unshown_step_not_expanded :
    let payload : Value := .mapping [(.str "serial", .str "a"), (.int 5, .int 2)]
    let raw : Value := .ofFields [("actions", .list [.ofFields [("t:op", payload)]])]
    let wf : Workflow Unit := .plain {} [("op", some fun _ _ => return .null)]
    ∃ s, Step.listOf "steps" (.list [raw]) = .ok [s] ∧
      (∀ id handler payload n w, wf.table.handler? id = some handler →
        handler payload wf.ctx n w = ⟨.returned .null, [], w⟩) ∧
      wf.expandTo 1 1 [s] () = some ([("t", "op", payload)], ()) ∧
      (wf.run [s] 1 ()).ending = .raised .mistyped := by
  intro payload raw wf
  let s : Step := {
    actions := [.named "t:op" payload]
    raw := [(.str "actions", .list [.ofFields [("t:op", payload)]])] }
  have hread : Step.listOf "steps" (.list [raw]) = .ok [s] := by cbv
  refine ⟨s, hread, fun id handler payload n w h => ?_, by cbv, by cbv⟩
  obtain ⟨verb, hverb⟩ := plain_handler h
  cases List.mem_singleton.mp hverb
  rfl

end Workflow

end Reflash
