import Reflash.Proofs.Fallback
import Reflash.Proofs.Handlers
import Reflash.Proofs.Insertion
import Reflash.Proofs.Splice

set_option autoImplicit false

/-! # Groups are as good as their steps

A step that only groups others can be left out of a list of steps, with the others in its place: what
is seen of the run stays the same, but for the call of the handler that groups (`Workflow.run_grouping`).
The group could make a difference only where a failure of its steps reaches it, and none does: what
leaves a step without a fallback is no failure of an action. -/

namespace Reflash

open Run

variable {σ α β : Type}

/-! ## What is seen of a run of steps -/

/-- What is seen of a run from outside: which handlers are called, and every signal but the lines of
the record. -/
inductive Sight where
  | handled (ns verb : String) (payload : Value)
  | signalled (signal : Signal)

/-- What is seen of a signal. -/
def Signal.sight? : Signal → Option Sight
  | logged _ => none
  | s => some (.signalled s)

/-- What is seen of an event, for whatever reason it happened. -/
def Event.sight? : Event → Option Sight
  | handler s | recovery s | ended s => s.sight?
  | dispatched ns verb payload => some (.handled ns verb payload)
  | within _ e => e.sight?
  | _ => none

namespace Flow

/-- The run as it is seen. -/
def seen (flow : Flow σ α) : Run Sight σ α :=
  flow.filterEvents Event.sight?

theorem seen_bind (flow : Flow σ α) (next : α → Flow σ β) :
    (flow >>= next).seen = flow.seen >>= fun a => (next a).seen :=
  filterEvents_bind _ flow next

theorem seen_pure (a : α) : (Pure.pure a : Flow σ α).seen = Pure.pure a := rfl

/-- Why actions are carried out is not seen. -/
theorem seen_inPart (part : Part) (flow : Flow σ α) : (inPart part flow).seen = flow.seen := by
  have hinside : (inside part flow).seen = flow.seen := filterEvents_mapEvents _ _ flow
  have hentered : seen (Run.emit (.entered part) : Flow σ Unit) = Pure.pure () :=
    filterEvents_emit_none _ rfl
  have hleft : seen (Run.emit (.left part) : Flow σ Unit) = Pure.pure () :=
    filterEvents_emit_none _ rfl
  unfold inPart
  simp only [seen_bind, hinside, hentered, hleft, seen_pure, pure_bind, bind_pure]

/-- Looking at the failure of a run makes no difference if it does not end with that of an action. -/
theorem failureOf_eq {flow : Flow σ Unit} (hflow : flow.Meets NoFailure)
    (next : Option (String × Fault) → Flow σ β) :
    failureOf flow >>= next = flow >>= fun _ => next none := by
  funext n w
  have hends := hflow n w
  unfold failureOf
  rw [bind_assoc, bind_apply, bind_apply, Run.attempt]
  rcases hr : flow n w with ⟨_ | e | _, es, w'⟩
  · rfl
  · rw [hr] at hends
    cases e with
    | inAction id c => exact absurd rfl (hends id c)
    | _ => exact congrArg (Trail.mk _ · _) (List.append_nil es)
  · rfl

end Flow

namespace Workflow

variable {wf : Workflow σ} {runSteps : List Step → Flow σ Unit}

/-- A step that applies and whose actions do not fail carries them out once. -/
theorem step_eq {s : Step} {text : String}
    (hc : Condition.evaluate s.condition wf.ctx.settings.data = .ok true)
    (hs : s.describe = .ok text)
    (hacts : (Flow.actions runSteps wf.table wf.ctx s.actions).Meets NoFailure) {n : Nat}
    (hn : n ≠ 0) (w : σ) :
    wf.step runSteps s n w = (Flow.ofRecovery wf.ctx.host.pause >>= fun _ =>
      Run.emit (.started text) >>= fun _ =>
        Flow.actions runSteps wf.table wf.ctx s.actions) n w := by
  have hstart : wf.start runSteps s {} = Flow.ofRecovery wf.ctx.host.pause >>= fun _ =>
      Run.emit (.started text) >>= fun _ =>
        Flow.actions runSteps wf.table wf.ctx s.actions >>= fun _ => Pure.pure (.inr ()) := by
    unfold start
    rw [hc, hs]
    refine bind_congr fun _ => ?_
    rw [ofFallible_ok_bind, if_pos rfl, ofFallible_ok_bind]
    exact bind_congr fun _ => Flow.failureOf_eq hacts _
  obtain ⟨k, rfl⟩ : ∃ k, n = k + 1 := ⟨n - 1, by omega⟩
  show (wf.start runSteps s {} >>= _) (k + 1) w = _
  rw [hstart]
  simp only [bind_assoc, pure_bind, bind_pure_unit]

end Workflow

/-! ## Steps that only group others -/

namespace Step

/-- The mapping of a step that groups the steps that values describe, and does nothing else. -/
def groupEntries (raws : List Value) : Entries :=
  [(.str "actions", .list [.ofFields [("core:group", .list raws)]])]

/-- The step that groups the steps that values describe, and does nothing else. -/
def grouping (raws : List Value) : Step :=
  { actions := [.named "core:group" (.list raws)], raw := groupEntries raws }

theorem ofValue_groupEntries (path : String) (raws : List Value) :
    ofValue path (.mapping (groupEntries raws)) = .ok (grouping raws) := by
  cbv

end Step

/-- The call of the handler that groups steps. -/
def Sight.grouped (raws : List Value) : Sight :=
  .handled "core" "group" (.list raws)

namespace Builtin

theorem dispatch_group (payload : Value) :
    (Action.named "core:group" payload).dispatch = .ok ⟨"core:group", "core", "group", payload⟩ := by
  cbv

theorem handler?_group : table.handler? "core:group" = some (group : Handler σ) := by
  cbv

theorem callHandler_group (ctx : Context σ) {path : String} {raws : List Value} {ss : List Step}
    (hss : Step.listOf path (.list raws) = .ok ss) :
    Flow.callHandler table ctx ⟨"core:group", "core", "group", .list raws⟩ =
      Run.emit (.dispatched "core" "group" (.list raws)) >>= fun _ => Pure.pure ss := by
  have hhandler : ActionTable.lookup table "core:group" = .ok (group : Handler σ) :=
    ActionTable.lookup_eq_ok.mpr handler?_group
  unfold Flow.callHandler
  rw [hhandler, ofFallible_ok_bind]
  refine bind_congr fun _ => ?_
  cases raws with
  | nil =>
    cases hss
    rfl
  | cons v vs =>
    have hread : Step.listOf "core:group substeps" (.list (v :: vs)) = .ok ss := Step.ofItems_place hss
    show Run.ofFallible (Step.listOf "core:group substeps" (.list (v :: vs))) = Pure.pure ss
    rw [hread]
    rfl

/-- What a group leaves is the call of its handler and what its steps leave. -/
theorem actions_group (runSteps : List Step → Flow σ Unit) (ctx : Context σ) {path : String}
    {raws : List Value} {ss : List Step} (hss : Step.listOf path (.list raws) = .ok ss) :
    Flow.actions runSteps table ctx (Step.grouping raws).actions =
      Run.emit (.dispatched "core" "group" (.list raws)) >>= fun _ =>
        if ss.isEmpty then Pure.pure () else Flow.inPart .substeps (runSteps ss) := by
  show Flow.actions runSteps table ctx [.named "core:group" (.list raws)] = _
  rw [Flow.actions_single, Flow.action_eq (dispatch_group _), callHandler_group ctx hss]
  rfl

theorem seen_actions_group (runSteps : List Step → Flow σ Unit) (ctx : Context σ) {path : String}
    {raws : List Value} {ss : List Step} (hss : Step.listOf path (.list raws) = .ok ss) :
    Flow.seen (Flow.actions runSteps table ctx (Step.grouping raws).actions) =
      Run.emit (.grouped raws) >>= fun _ =>
        Flow.seen (if ss.isEmpty then Pure.pure () else runSteps ss) := by
  have hcalled : Flow.seen (Run.emit (.dispatched "core" "group" (.list raws)) : Flow σ Unit) =
      Run.emit (.grouped raws) :=
    filterEvents_emit_some _ rfl
  have hinner : Flow.seen (if ss.isEmpty then Pure.pure () else
      Flow.inPart .substeps (runSteps ss)) =
      Flow.seen (if ss.isEmpty then Pure.pure () else runSteps ss) := by
    split
    · rfl
    · exact Flow.seen_inPart _ _
  rw [actions_group runSteps ctx hss, Flow.seen_bind, hcalled, hinner]

theorem actions_group_noFailure {runSteps : List Step → Flow σ Unit} (ctx : Context σ)
    {path : String} {raws : List Value} {ss : List Step}
    (hss : Step.listOf path (.list raws) = .ok ss) (hsteps : (runSteps ss).Meets NoFailure) :
    (Flow.actions runSteps table ctx (Step.grouping raws).actions).Meets NoFailure := by
  rw [actions_group runSteps ctx hss]
  refine Ensures.emit_bind ?_
  split
  · exact Ensures.pure fun id c h => by cases h
  · exact Flow.inPart_ensures hsteps (fun es _ _ id c h => by cases h) (fun es e h => h)
      fun es _ id c h => by cases h

end Builtin

namespace Workflow

variable {wf : Workflow σ} {runSteps : List Step → Flow σ Unit} {path : String}
  {raws : List Value} {ss : List Step}

/-- What is run for the sake of a group, after a pause of its own. -/
def grouped (wf : Workflow σ) (runSteps : List Step → Flow σ Unit) (ss : List Step) : Flow σ Unit :=
  Flow.ofRecovery wf.ctx.host.pause >>= fun _ => if ss.isEmpty then Pure.pure () else runSteps ss

/-- A step that groups others adds nothing but the call of the handler to what is seen of them. -/
theorem step_grouping (htable : wf.table = Builtin.table)
    (hss : Step.listOf path (.list raws) = .ok ss)
    (hshown : ∃ text, (Step.grouping raws).describe = .ok text)
    (hsteps : (runSteps ss).Meets NoFailure) {n : Nat} (hn : n ≠ 0) :
    Inserts (.grouped raws) n (wf.grouped runSteps ss).seen
      (wf.step runSteps (Step.grouping raws)).seen := by
  obtain ⟨text, htext⟩ := hshown
  have hends : (Flow.actions runSteps wf.table wf.ctx (Step.grouping raws).actions).Meets
      NoFailure := by
    rw [htable]
    exact Builtin.actions_group_noFailure wf.ctx hss hsteps
  have hstarted : Flow.seen (Run.emit (.started text) : Flow σ Unit) = Pure.pure () :=
    filterEvents_emit_none _ rfl
  intro w
  have hstep : (wf.step runSteps (Step.grouping raws)).seen n w =
      Flow.seen (Flow.ofRecovery wf.ctx.host.pause >>= fun _ => Run.emit (.started text) >>=
        fun _ => Flow.actions runSteps wf.table wf.ctx (Step.grouping raws).actions) n w := by
    unfold Flow.seen
    rw [filterEvents_apply, filterEvents_apply, step_eq rfl htext hends hn w]
  rw [hstep, htable, grouped, Flow.seen_bind, Flow.seen_bind]
  -- After the pause the call of the handler comes first.
  refine Inserts.after _ (fun _ => ?_) w
  rw [Flow.seen_bind, hstarted, pure_bind, Builtin.seen_actions_group runSteps wf.ctx hss]
  exact Inserts.emit_bind _

/-! ## Pauses -/

/-- Before a step a pause makes no difference, if two of them are as good as one. -/
theorem pause_each (hpause : (wf.ctx.host.pause >>= fun _ => wf.ctx.host.pause) =
    wf.ctx.host.pause) (s : Step) (ss : List Step) {n : Nat} (hn : n ≠ 0) (w : σ) :
    (Flow.ofRecovery wf.ctx.host.pause >>= fun _ => Run.each (wf.step runSteps) (s :: ss)) n w =
      Run.each (wf.step runSteps) (s :: ss) n w := by
  have htwice : (Flow.ofRecovery wf.ctx.host.pause >>= fun _ =>
      Flow.ofRecovery wf.ctx.host.pause) = Flow.ofRecovery wf.ctx.host.pause := by
    unfold Flow.ofRecovery
    rw [← mapEvents_bind, hpause]
  -- A step begins with a pause, as soon as it may begin at all.
  obtain ⟨rest, hrest⟩ : ∃ rest : Unit → Flow σ Unit, ∀ w,
      Run.each (wf.step runSteps) (s :: ss) n w =
        (Flow.ofRecovery wf.ctx.host.pause >>= rest) n w := by
    obtain ⟨next, hnext⟩ : ∃ next, wf.start runSteps s {} =
        Flow.ofRecovery wf.ctx.host.pause >>= next := ⟨_, rfl⟩
    obtain ⟨k, rfl⟩ : ∃ k, n = k + 1 := ⟨n - 1, by omega⟩
    obtain ⟨again, hagain⟩ : ∃ again, Run.repeatFor (wf.start runSteps s) (k + 1) {} =
        wf.start runSteps s {} >>= again := ⟨_, rfl⟩
    refine ⟨fun u => (next u >>= again) >>= fun _ => Run.each (wf.step runSteps) ss, fun w => ?_⟩
    rw [← bind_assoc, ← bind_assoc, ← hnext, ← hagain]
    rfl
  have hpaused : (Flow.ofRecovery wf.ctx.host.pause >>= fun _ =>
      Run.each (wf.step runSteps) (s :: ss)) n w =
        (Flow.ofRecovery wf.ctx.host.pause >>= fun _ =>
          Flow.ofRecovery wf.ctx.host.pause >>= rest) n w := by
    rw [bind_apply, bind_apply]
    simp only [hrest]
  rw [hpaused, ← bind_assoc, htwice, hrest]

/-! ## Runs with a group in them -/

theorem runStepsTo_noFailure (hwf : wf.Candid) (hunlock : wf.ctx.device.unlockStep.fallback = [])
    (hss : ∀ s ∈ ss, s.fallback = []) (depth : Nat) :
    (wf.runStepsTo depth ss).Meets NoFailure := by
  cases depth with
  | zero => exact Ensures.unfinished fun _ _ h => by cases h
  | succ depth =>
    refine NoFailure.composes.each fun s hs => Ensures.mono (step_fails hwf _ s) ?_
    intro es o h id c ho
    cases h id c (Ending.forget_eq_raised ho) with
    | own _ _ _ _ _ _ _ nonempty => exact nonempty (hss s hs)
    | unlock h =>
      obtain ⟨-, -, -, nonempty, -⟩ := h
      exact nonempty hunlock

/-- The run of a list of steps in which those of a group stand on their own. -/
def spliced (wf : Workflow σ) (depth : Nat) (before ss after : List Step) : Flow σ Unit :=
  Run.each (wf.step (wf.runStepsTo depth)) before >>= fun _ =>
    wf.grouped (wf.runStepsTo depth) ss >>= fun _ =>
      Run.each (wf.step (wf.runStepsTo depth)) after

theorem runStepsTo_append (depth : Nat) (before ss after : List Step) :
    wf.runStepsTo (depth + 1) (before ++ ss ++ after) =
      Run.each (wf.step (wf.runStepsTo depth)) before >>= fun _ =>
        Run.each (wf.step (wf.runStepsTo depth)) ss >>= fun _ =>
          Run.each (wf.step (wf.runStepsTo depth)) after := by
  show Run.each _ _ = _
  rw [each_append, each_append, bind_assoc]

/-- With a group in a run the call of its handler is put in. -/
theorem spliced_inserts (htable : wf.table = Builtin.table) (hwf : wf.Candid)
    (hunlock : wf.ctx.device.unlockStep.fallback = [])
    (hss : Step.listOf path (.list raws) = .ok ss) (hfallback : ∀ s ∈ ss, s.fallback = [])
    (hshown : ∃ text, (Step.grouping raws).describe = .ok text) (depth : Nat)
    (before after : List Step) {n : Nat} (hn : n ≠ 0) :
    Inserts (.grouped raws) n (wf.spliced depth before ss after).seen
      (wf.runStepsTo (depth + 1) (before ++ [.grouping raws] ++ after)).seen := by
  have hends := runStepsTo_noFailure hwf hunlock hfallback depth
  have hgroup := step_grouping htable hss hshown hends hn
  rw [runStepsTo_append]
  unfold spliced
  simp only [Flow.seen_bind]
  refine Inserts.after _ fun _ => Inserts.before ?_ _
  show Inserts _ n _ (Flow.seen (wf.step _ (.grouping raws) >>= fun _ => Pure.pure ()))
  rw [bind_pure_unit]
  exact hgroup

section

variable (hpause : (wf.ctx.host.pause >>= fun _ => wf.ctx.host.pause) = wf.ctx.host.pause)
  (hnone : ss = [] → wf.ctx.host.pause = Pure.pure ())
include hpause hnone

/-- The pause of a group makes no difference to the steps that it groups. -/
theorem grouped_eq (depth : Nat) {n : Nat} (hn : n ≠ 0) (w : σ) :
    wf.grouped (wf.runStepsTo (depth + 1)) ss n w = wf.runStepsTo (depth + 1) ss n w := by
  unfold grouped
  cases ss with
  | nil =>
    rw [hnone rfl]
    rfl
  | cons s ss => exact pause_each hpause s ss hn w

variable (hsteady : wf.Steady)
include hsteady

theorem spliced_grows (depth : Nat) (before after : List Step) {n : Nat} (hn : n ≠ 0) :
    (wf.spliced depth before ss after).Grows n n
      (wf.runStepsTo (depth + 1) (before ++ ss ++ after)) := by
  have hgrouped : (wf.grouped (wf.runStepsTo depth) ss).Grows n n
      (wf.runStepsTo (depth + 1) ss) := by
    intro w
    have hgrows : (wf.grouped (wf.runStepsTo depth) ss).Grows n n
        (wf.grouped (wf.runStepsTo (depth + 1)) ss) :=
      .bind (.of_const fun _ => rfl) fun _ => .ite (fun _ => .pure _) fun _ =>
        runStepsTo_grows hsteady (Nat.le_refl n) (Nat.le_succ depth) ss
    rw [← grouped_eq hpause hnone depth hn]
    exact hgrows w
  rw [runStepsTo_append]
  exact .bind (.of_const fun _ => rfl) fun _ => .bind hgrouped fun _ => .of_const fun _ => rfl

theorem grows_spliced (depth : Nat) (before after : List Step) (n : Nat) :
    (wf.runStepsTo (depth + 1) (before ++ ss ++ after)).Grows n (n + 1)
      (wf.spliced (depth + 1) before ss after) := by
  have hsteps (ss : List Step) : (wf.runStepsTo depth ss).Grows n (n + 1)
      (wf.runStepsTo (depth + 1) ss) :=
    runStepsTo_grows hsteady (Nat.le_succ n) (Nat.le_succ depth) ss
  have heach (ss : List Step) : (Run.each (wf.step (wf.runStepsTo depth)) ss).Grows n (n + 1)
      (Run.each (wf.step (wf.runStepsTo (depth + 1))) ss) :=
    .each fun s _ => step_grows hsteady (Nat.le_succ n) hsteps s
  have hgrouped : (Run.each (wf.step (wf.runStepsTo depth)) ss).Grows n (n + 1)
      (wf.grouped (wf.runStepsTo (depth + 1)) ss) := by
    intro w
    rw [grouped_eq hpause hnone depth (Nat.succ_ne_zero n)]
    exact runStepsTo_grows hsteady (Nat.le_succ n) (Nat.le_refl (depth + 1)) ss w
  rw [runStepsTo_append]
  exact .bind (heach before) fun _ => .bind hgrouped fun _ => heach after

end

theorem settle_inserts {e : Sight} {n : Nat} {flow flow' : Flow σ Unit}
    (h : Inserts e n flow.seen flow'.seen) :
    Inserts e n (wf.settle flow).seen (wf.settle flow').seen := by
  have hsettle (flow : Flow σ Unit) : (wf.settle flow).seen =
      (flow.seen >>= fun _ => Pure.pure true).rescue fun e =>
        Flow.seen (if e.isTermination then wf.end_ e else Run.raise e) := by
    unfold settle Flow.seen
    rw [filterEvents_rescue, filterEvents_bind]
    rfl
  rw [hsettle, hsettle]
  exact (h.before _).rescue _

/-- With the built-in handlers, steps can as well be grouped. Whatever is seen of the run without the
group begins something to which the run with the group adds nothing but the call of the handler that
groups, at most once; and what is seen of the run with the group is, but for that call, how the run
without it begins. So both have the same result, if they have one. The steps that are grouped need to
have no fallback, nor has the step that unlocks the bootloader. The surroundings are asked that a
pause is as good as two, and that nothing but actions ends with the failure of an action. -/
theorem run_grouping (htable : wf.table = Builtin.table) (hhost : wf.ctx.host.Steady)
    (hwf : wf.Candid) (hpause : (wf.ctx.host.pause >>= fun _ => wf.ctx.host.pause) =
      wf.ctx.host.pause)
    {rawsBefore rawsAfter : List Value} {before after : List Step}
    (hbefore : Step.listOf path (.list rawsBefore) = .ok before)
    (hss : Step.listOf path (.list raws) = .ok ss)
    (hafter : Step.listOf path (.list rawsAfter) = .ok after)
    (hnone : raws = [] → wf.ctx.host.pause = Pure.pure ())
    (hfallback : ∀ s ∈ ss, s.fallback = []) (hunlock : wf.ctx.device.unlockStep.fallback = [])
    (hshown : ∃ text, (Step.grouping raws).describe = .ok text) :
    ∃ flat grouped, Step.listOf path (.list (rawsBefore ++ raws ++ rawsAfter)) = .ok flat ∧
      Step.listOf path (.list (rawsBefore ++ [.mapping (Step.groupEntries raws)] ++ rawsAfter)) =
        .ok grouped ∧
      ∀ n w,
        (∃ t : Trail Sight σ Bool, ((wf.run flat).seen n w).Precedes t ∧
          t.Inserts (.grouped raws) ((wf.run grouped).seen (n + 1) w)) ∧
        ∃ t : Trail Sight σ Bool, t.Inserts (.grouped raws) ((wf.run grouped).seen n w) ∧
          t.Precedes ((wf.run flat).seen n w) := by
  have hgroup : Step.listOf path (.list [.mapping (Step.groupEntries raws)]) =
      .ok [Step.grouping raws] :=
    Step.ofItems_cons_eq_ok.mpr ⟨_, [], Step.ofValue_groupEntries _ raws, rfl, rfl⟩
  refine ⟨_, _, Step.listOf_append (Step.listOf_append hbefore hss) hafter,
    Step.listOf_append (Step.listOf_append hbefore hgroup) hafter, ?_⟩
  have hsteady : wf.Steady := Builtin.steady htable hhost
  have hnone' : ss = [] → wf.ctx.host.pause = Pure.pure () := by
    rintro rfl
    refine hnone ?_
    cases raws with
    | nil => rfl
    | cons v vs =>
      obtain ⟨_, _, _, _, h⟩ := Step.ofItems_cons_eq_ok.mp hss
      cases h
  have hinserts (depth : Nat) {n : Nat} (hn : n ≠ 0) :
      Inserts (.grouped raws) n (wf.settle (wf.spliced depth before ss after)).seen
        (wf.settle (wf.runStepsTo (depth + 1) (before ++ [.grouping raws] ++ after))).seen :=
    settle_inserts (spliced_inserts htable hwf hunlock hss hfallback hshown depth before after hn)
  intro n w
  cases n with
  | zero =>
    exact ⟨⟨_, .inr ⟨rfl, List.nil_prefix⟩, .refl _⟩, _, .refl _, .inr ⟨rfl, List.nil_prefix⟩⟩
  | succ n =>
    have hn : n + 1 ≠ 0 := Nat.succ_ne_zero n
    refine ⟨⟨_, ?_, hinserts (n + 1) (Nat.succ_ne_zero (n + 1)) w⟩, _, hinserts n hn w, ?_⟩
    · exact (settle_grows (grows_spliced hpause hnone' hsteady n before after (n + 1))).filterEvents _ w
    · exact (settle_grows (spliced_grows hpause hnone' hsteady n before after hn)).filterEvents _ w

/-- A device that gets lost once, with a user who wants to try again: grouped or not, the step that
reconnects it is run twice. -/
theorem lost_once_grouping :
    let host : Host Bool := {
      Host.answering { choice := .retry } with
      tools := {
        (Host.answering {}).tools with
        perform := fun _ _ => do
          let lost ← Run.world fun lost => (lost, false)
          Run.ofFallible (if lost then .error (.failure .generic "lost") else .ok ()) } }
    let wf : Workflow Bool := {
      table := Builtin.table
      ctx := { device := default, system := default, settings := {}, host, cache := default } }
    let raws : List Value := [.ofFields [("actions", .list [Recovery.reconnectAction.toValue])]]
    let s : Step := {
      actions := [Recovery.reconnectAction]
      raw := [(.str "actions", .list [Recovery.reconnectAction.toValue])] }
    wf.ctx.host.Steady ∧ wf.Candid ∧
      (wf.ctx.host.pause >>= fun _ => wf.ctx.host.pause) = wf.ctx.host.pause ∧
      Step.listOf "steps" (.list raws) = .ok [s] ∧ s.fallback = [] ∧
      wf.ctx.device.unlockStep.fallback = [] ∧
      (∃ text, (Step.grouping raws).describe = .ok text) ∧
      (wf.run [s] 2 true).ending = .returned true ∧
      ((wf.run [s]).seen 2 true).Inserts (.grouped raws)
        ((wf.run [.grouping raws]).seen 3 true) := by
  intro host wf raws s
  have hhost : wf.ctx.host.Steady := { Host.answering_keeps { choice := .retry } Job.steady_closed with
    perform := fun _ _ _ _ _ _ => .bind (.world _) fun _ => .ofFallible _ }
  have hcandid : wf.Candid := {
    pauses := fun _ _ _ _ h => by cases h
    decides := fun _ _ _ _ _ h => by cases h }
  have hpause : (wf.ctx.host.pause >>= fun _ => wf.ctx.host.pause) = wf.ctx.host.pause := rfl
  have hread : Step.listOf "steps" (.list raws) = .ok [s] := by cbv
  have hshown : ∃ text, (Step.grouping raws).describe = .ok text := ⟨_, by cbv⟩
  have hended : (wf.run [s] 2 true).ending = .returned true := by cbv
  have hfallback : ∀ s' ∈ [s], s'.fallback = [] := List.forall_mem_singleton.mpr rfl
  have hnil : Step.listOf "steps" (.list []) = .ok [] := rfl
  obtain ⟨flat, grouped, hflat, hgrouped, hrun⟩ := run_grouping rfl hhost hcandid hpause hnil hread
    hnil (fun h => absurd h (List.cons_ne_nil _ _)) hfallback rfl hshown
  cases hread.symm.trans hflat
  have hgroup : Step.listOf "steps" (.list [.mapping (Step.groupEntries raws)]) =
      .ok [.grouping raws] := by cbv
  cases hgroup.symm.trans hgrouped
  obtain ⟨t, ht, hinserts⟩ := (hrun 2 true).1
  have hfinished : ((wf.run [s]).seen 2 true).ending ≠ .unfinished := by
    rw [Flow.seen, filterEvents_apply, hended]
    simp
  rw [← ht.eq_of_finished hfinished] at hinserts
  exact ⟨hhost, hcandid, hpause, hread, rfl, rfl, hshown, hended, hinserts⟩

/-- What grouping asks for is needed. A question that ends with the failure of an action is put again
for the group, which then goes on; a cancellation that nothing waits for any more arrives at the
pause of an empty group; and a group that cannot be shown fails before its first step is run, although
only its second one cannot be shown. -/
theorem grouping_ends_otherwise :
    let workflow (host : Host Bool) : Workflow Bool := {
      table := Builtin.table
      ctx := { device := default, system := default, settings := {}, host, cache := default } }
    let failing : Tools Bool := {
      (Host.answering {}).tools with
      perform := fun _ _ => Run.raise (.failure .generic "lost") }
    let reconnect : Value := .ofFields [("actions", .list [Recovery.reconnectAction.toValue])]
    let unordered : Value := .ofFields [("actions", .list [.ofFields [("adb:reconnect",
      .mapping [(.str "serial", .null), (.int 5, .null)])]])]
    let ending (host : Host Bool) (first : Bool) (raws : List Value) : Ending Bool :=
      match Step.listOf "steps" (.list raws) with
      | .ok steps => ((workflow host).run steps 3 first).ending
      | .error e => .raised e
    let misled : Host Bool := {
      Host.answering {} with
      decide := fun _ => do
        let first ← Run.world fun first => (first, false)
        Run.ofFallible (if first then .error (.inAction "adb:reconnect" (.failure .generic "lost"))
          else .ok {})
      tools := failing }
    let cancelled : Host Bool := {
      Host.answering {} with
      notify := fun _ _ => true
      pause := do
        let pending ← Run.world fun pending => (pending, false)
        Run.ofFallible (if pending then .error (.cancelled "") else .ok ()) }
    let declining : Host Bool := {
      Host.answering { choice := .abort } with
      tools := failing }
    (ending misled true [reconnect] = .returned false ∧
      ending misled true [.mapping (Step.groupEntries [reconnect])] = .returned true) ∧
    (ending cancelled false [reconnect] = .returned true ∧
      ending cancelled false [reconnect, .mapping (Step.groupEntries [])] =
        .raised (.cancelled "")) ∧
    (ending declining true [reconnect, unordered] = .returned false ∧
      ending declining true [.mapping (Step.groupEntries [reconnect, unordered])] =
        .raised .mistyped) := by
  refine ⟨⟨?_, ?_⟩, ⟨?_, ?_⟩, ?_, ?_⟩
  all_goals cbv

end Workflow

end Reflash
