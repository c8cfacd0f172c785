import Reflash.Proofs.Congruence
import Reflash.Tool.CommandLine

set_option autoImplicit false

/-! # Rehearsals of runs that start processes

Where the device tools are commands, a run works on a world of three parts: the devices, on which
processes work, the processes that were started so far, and the rest, on which shell, downloads and
archives work (`Bench`). In a dry run no process is started.

A run on the rest alone is a rehearsal of a run on all of the world (`Rehearses`) if the dry run is
just that, and the other one as well, as far as it can be seen, unless something goes wrong: a
command is recorded that cannot be started, or a process fails. Runs that are put together are
rehearsed by their rehearsals, put together the same way. -/

namespace Reflash

open Run

variable {ε ε' σ τ α β : Type}

/-! ## The world of processes -/

/-- A process that was started: its words, and its result if it came to one. -/
structure Process where
  argv : List String
  result : Option CommandResult

/-- The devices that processes work on, the processes that were started so far, and the rest of the
world, with which processes have nothing to do. In a dry run there are none. -/
structure Bench (σ τ : Type) where
  rest : σ
  devices : τ
  processes : List Process := []
  dryRun : Bool := false

/-- What starting a process does to the devices, and how it ends: with its result, or without one if
there is no such program. -/
abbrev Launch (τ : Type) := List String → τ → Ending (Option CommandResult) × τ

/-- The result of a process that ended so. -/
def Ending.result? : Ending (Option CommandResult) → Option CommandResult
  | .returned result => result
  | _ => none

/-- A run that only the rest of the world is concerned with. -/
def Run.aside (r : Run ε σ α) : Run ε (Bench σ τ) α := fun n w =>
  let t := r n w.rest
  ⟨t.ending, t.events, { w with rest := t.world }⟩

namespace Bench

/-- What a run does to the rest of the world where it must not start anything. -/
def restrict (w : Bench σ τ) (r : Run ε (Bench σ τ) α) : Run ε σ α := fun n s =>
  let t := r n { w with rest := s, dryRun := true }
  ⟨t.ending, t.events, t.world.rest⟩

/-- Starts a process. -/
def start (launch : Launch τ) (argv : List String) : Job (Bench σ τ) (Option CommandResult) :=
  fun _ w =>
    let (ending, devices) := launch argv w.devices
    ⟨ending, [], { w with devices, processes := w.processes ++ [⟨argv, ending.result?⟩] }⟩

/-- How commands are carried out: a dry run only records them. -/
def runner (launch : Launch τ) : Runner (Bench σ τ) := fun argv n w =>
  if w.dryRun then Command.dry argv n w else Command.started (start launch) argv n w

end Bench

/-! ## What is seen -/

namespace Signal

/-- The command of which the record was told. -/
def command? : Signal → Option (List String)
  | commanded argv => some argv
  | _ => none

/-- What the shell was told or asked. -/
def shown? : Signal → Option (Notice ⊕ PromptRequest)
  | notified notice => some (.inl notice)
  | prompted request => some (.inr request)
  | _ => none

end Signal

variable (look : ε → Option Signal)

/-- The commands on the record, in order. -/
def recorded (es : List ε) : List (List String) :=
  es.filterMap fun e => (look e).bind Signal.command?

/-- The notices and the questions, in order. -/
def shown (es : List ε) : List (Notice ⊕ PromptRequest) :=
  es.filterMap fun e => (look e).bind Signal.shown?

theorem recorded_append (es es' : List ε) :
    recorded look (es ++ es') = recorded look es ++ recorded look es' :=
  List.filterMap_append ..

theorem shown_append (es es' : List ε) :
    shown look (es ++ es') = shown look es ++ shown look es' :=
  List.filterMap_append ..

/-! ## Tools -/

/-- The programs of the device tools, and the serial numbers of the devices they are to speak to. -/
structure ToolKit where
  executable : DeviceTool → String := DeviceTool.text
  serial : DeviceTool → String := fun _ => ""

namespace ToolKit

variable (kit : ToolKit)

/-- One of the tools. -/
def tool (tool : DeviceTool) (dryRun : Bool) : CommandLineTool :=
  { tool, executable := kit.executable tool, serial := kit.serial tool, dryRun }

/-- The words with which one of the tools is started. -/
def line (tool : DeviceTool) (args : List String) : List String :=
  let serial := if tool = .heimdall || (kit.serial tool).isEmpty then [] else ["-s", kit.serial tool]
  kit.executable tool :: (serial ++ args)

/-- The word that asks whether a device can be reached. -/
def pollWord : DeviceTool → String
  | .adb => "get-state"
  | .fastboot => "devices"
  | .heimdall => "detect"

/-- The access polls of the tools. -/
def polls : List (List String) :=
  [.adb, .fastboot, .heimdall].map fun tool => kit.line tool [pollWord tool]

/-- The process ended with the exit code 0, and with a positive answer if it was an access poll. -/
def Succeeded (p : Process) : Prop :=
  ∃ result, p.result = some result ∧ result.code = 0 ∧
    ∀ tool, p.argv = kit.line tool [pollWord tool] → CommandLineTool.reachable tool result

/-- The commands that were started apart from the access polls. -/
def executed (ps : List Process) : List (List String) :=
  (ps.map Process.argv).filter fun argv => !kit.polls.contains argv

theorem executed_append (ps ps' : List Process) :
    kit.executed (ps ++ ps') = kit.executed ps ++ kit.executed ps' := by
  unfold executed
  rw [List.map_append, List.filter_append]

end ToolKit

/-! ## Rehearsals -/

variable (kit : ToolKit) {look}

/-- A run on all of the world, compared with one on the rest of it: no more processes were started
than commands recorded; and if as many were, and all of them succeeded, then both runs look the
same, and the commands on the record of the one are those that the other one started, without
polls. -/
structure Carries (look : ε → Option Signal) (w : Bench σ τ) (ps : List Process)
    (t : Trail ε σ α) (t' : Trail ε (Bench σ τ) α) : Prop where
  real : t'.world.dryRun = false
  processes : t'.world.processes = w.processes ++ ps
  started : ps.length ≤ (recorded look t'.events).length
  agrees : ps.length = (recorded look t'.events).length → (∀ p ∈ ps, kit.Succeeded p) →
    t'.ending = t.ending ∧ t'.world.rest = t.world ∧
      shown look t'.events = shown look t.events ∧
      recorded look t.events = kit.executed ps

/-- A run on the rest of the world is what a dry run does, and what a run that starts processes does
unless something goes wrong. -/
structure Rehearses (look : ε → Option Signal) (core : Run ε σ α) (r : Run ε (Bench σ τ) α) :
    Prop where
  dry : ∀ n w, w.dryRun = true → r n w = core.aside n w
  real : ∀ n w, w.dryRun = false → ∃ ps, Carries kit look w ps (core n w.rest) (r n w)

namespace Rehearses

variable {kit}

/-- A run that only the rest of the world is concerned with is its own rehearsal. -/
theorem aside (core : Run ε σ α) :
    Rehearses kit look core (core.aside : Run ε (Bench σ τ) α) where
  dry _ _ _ := rfl
  real n w hw := by
    refine ⟨[], hw, (List.append_nil _).symm, Nat.zero_le _, fun hnone _ => ?_⟩
    exact ⟨rfl, rfl, rfl, List.eq_nil_of_length_eq_zero hnone.symm⟩

/-- In a dry run a run is its rehearsal, whatever else there is in the world. -/
theorem restrict_eq {core : Run ε σ α} {r : Run ε (Bench σ τ) α} (h : Rehearses kit look core r)
    (w : Bench σ τ) : w.restrict r = core := by
  funext n s
  unfold Bench.restrict
  rw [h.dry n _ rfl]
  rfl

/-- A run that depends on whether it is a dry run. -/
theorem switch {core : Run ε σ α} {r : Bool → Run ε (Bench σ τ) α}
    (h : ∀ dryRun, Rehearses kit look core (r dryRun)) :
    Rehearses kit look core fun n w => r w.dryRun n w where
  dry n w hw := by
    show r w.dryRun n w = _
    rw [(h w.dryRun).dry n w hw]
  real n w hw := (h w.dryRun).real n w hw

end Rehearses

namespace Rehearses

variable {kit}

/-- Runs in sequence are rehearsed in sequence. -/
theorem thereafter {core : Run ε σ α} {r : Run ε (Bench σ τ) α} {coreNext : Ending α → Run ε σ β}
    {next : Ending α → Run ε (Bench σ τ) β} (h : Rehearses kit look core r)
    (hnext : ∀ o, Rehearses kit look (coreNext o) (next o)) :
    Rehearses kit look (core.thereafter coreNext) (r.thereafter next) where
  dry n w hw := by
    have hsecond := (hnext (core n w.rest).ending).dry n (core.aside n w).world hw
    have hfirst : r.thereafter next n w =
        let rest := next (core n w.rest).ending n (core.aside n w).world
        ⟨rest.ending, (core n w.rest).events ++ rest.events, rest.world⟩ := by
      unfold Run.thereafter
      rw [h.dry n w hw]
      rfl
    rw [hfirst, hsecond]
    rfl
  real n w hw := by
    obtain ⟨ps, hfirst⟩ := h.real n w hw
    unfold Run.thereafter
    generalize core n w.rest = t at hfirst
    generalize r n w = t' at hfirst
    obtain ⟨ps', hsecond⟩ := (hnext t'.ending).real n t'.world hfirst.real
    have hstarted := hfirst.started
    have hstarted' := hsecond.started
    refine ⟨ps ++ ps', hsecond.real, ?_, ?_, ?_⟩
    · rw [hsecond.processes, hfirst.processes, List.append_assoc]
    · simp only [recorded_append, List.length_append]
      omega
    · -- As no part starts more than it records, neither starts less.
      intro hall hsucceeded
      simp only [recorded_append, List.length_append] at hall
      obtain ⟨hending, hrest, hshown, hrecorded⟩ :=
        hfirst.agrees (by omega) fun p hp => hsucceeded p (List.mem_append_left _ hp)
      obtain ⟨hending', hrest', hshown', hrecorded'⟩ :=
        hsecond.agrees (by omega) fun p hp => hsucceeded p (List.mem_append_right _ hp)
      rw [hending, hrest] at hending' hrest' hshown' hrecorded'
      dsimp only
      rw [hending, shown_append, shown_append, recorded_append, kit.executed_append, hshown,
        hrecorded]
      exact ⟨hending', hrest', congrArg _ hshown', congrArg _ hrecorded'⟩

theorem pure (a : α) :
    Rehearses kit look (Pure.pure a : Run ε σ α) (Pure.pure a : Run ε (Bench σ τ) α) :=
  aside (Pure.pure a)

theorem raise (e : Fault) :
    Rehearses kit look (Run.raise e : Run ε σ α) (Run.raise e : Run ε (Bench σ τ) α) :=
  aside (Run.raise e)

theorem unfinished :
    Rehearses kit look (Run.unfinished : Run ε σ α) (Run.unfinished : Run ε (Bench σ τ) α) :=
  aside Run.unfinished

theorem emit (event : ε) :
    Rehearses kit look (Run.emit event : Run ε σ Unit)
      (Run.emit event : Run ε (Bench σ τ) Unit) :=
  aside (Run.emit event)

theorem ofFallible (x : Fallible α) :
    Rehearses kit look (Run.ofFallible x : Run ε σ α)
      (Run.ofFallible x : Run ε (Bench σ τ) α) := by
  cases x with
  | ok a => exact pure a
  | error e => exact raise e

section

variable {core : Run ε σ α} {r : Run ε (Bench σ τ) α} (h : Rehearses kit look core r)
include h

theorem bind {coreNext : α → Run ε σ β} {next : α → Run ε (Bench σ τ) β}
    (hnext : ∀ a, Rehearses kit look (coreNext a) (next a)) :
    Rehearses kit look (core >>= coreNext) (r >>= next) := by
  rw [bind_eq_thereafter, bind_eq_thereafter]
  refine h.thereafter fun o => ?_
  cases o with
  | returned a => exact hnext a
  | raised e => exact raise e
  | unfinished => exact unfinished

theorem rescue {coreHandler : Fault → Run ε σ α} {handler : Fault → Run ε (Bench σ τ) α}
    (hhandler : ∀ e, Rehearses kit look (coreHandler e) (handler e)) :
    Rehearses kit look (core.rescue coreHandler) (r.rescue handler) := by
  rw [rescue_eq_thereafter, rescue_eq_thereafter]
  refine h.thereafter fun o => ?_
  cases o with
  | returned a => exact pure a
  | raised e => exact hhandler e
  | unfinished => exact unfinished

theorem attempt : Rehearses kit look core.attempt r.attempt := by
  rw [attempt_eq_thereafter, attempt_eq_thereafter]
  refine h.thereafter fun o => ?_
  cases o with
  | returned a => exact pure _
  | raised e => exact pure _
  | unfinished => exact unfinished

/-- The events may be renamed if they look the same. -/
theorem mapEvents {look' : ε' → Option Signal} {f : ε → ε'} (hf : ∀ e, look' (f e) = look e) :
    Rehearses kit look' (core.mapEvents f) (r.mapEvents f) where
  dry n w hw := by
    unfold Run.mapEvents
    rw [h.dry n w hw]
    rfl
  real n w hw := by
    obtain ⟨ps, hreal, hprocesses, hstarted, hagrees⟩ := h.real n w hw
    have hrecorded (es : List ε) : recorded look' (es.map f) = recorded look es := by
      simp only [recorded, List.filterMap_map, Function.comp_def, hf]
    have hshown (es : List ε) : shown look' (es.map f) = shown look es := by
      simp only [shown, List.filterMap_map, Function.comp_def, hf]
    refine ⟨ps, hreal, hprocesses, ?_, ?_⟩
    · simpa only [Run.mapEvents, hrecorded] using hstarted
    · simpa only [Run.mapEvents, hrecorded, hshown] using hagrees

end

theorem each {coreF : α → Run ε σ Unit} {f : α → Run ε (Bench σ τ) Unit} {xs : List α}
    (h : ∀ x ∈ xs, Rehearses kit look (coreF x) (f x)) :
    Rehearses kit look (Run.each coreF xs) (Run.each f xs) := by
  induction xs with
  | nil => exact pure ()
  | cons x xs ih => exact bind (h x (by simp)) fun _ => ih fun y hy => h y (by simp [hy])

theorem repeatFrom {coreRound : β → Run ε σ (β ⊕ α)} {round : β → Run ε (Bench σ τ) (β ⊕ α)}
    (h : ∀ b, Rehearses kit look (coreRound b) (round b)) (b : β) :
    Rehearses kit look (Run.repeatFrom coreRound b) (Run.repeatFrom round b) := by
  have hrounds (k : Nat) (b : β) :
      Rehearses kit look (Run.repeatFor coreRound k b) (Run.repeatFor round k b) := by
    induction k generalizing b with
    | zero => exact unfinished
    | succ k ih =>
      refine bind (h b) fun next => ?_
      cases next with
      | inl b => exact ih b
      | inr a => exact pure a
  exact ⟨fun n w hw => (hrounds n b).dry n w hw, fun n w hw => (hrounds n b).real n w hw⟩

end Rehearses

/-- There is a rehearsal of the run. -/
def Rehearsed (kit : ToolKit) (look : ε → Option Signal) (r : Run ε (Bench σ τ) α) : Prop :=
  ∃ core : Run ε σ α, Rehearses kit look core r

namespace Rehearsed

variable {kit} {r : Run ε (Bench σ τ) α}

theorem pure (a : α) : Rehearsed kit look (Pure.pure a : Run ε (Bench σ τ) α) :=
  ⟨_, .pure a⟩

theorem raise (e : Fault) : Rehearsed kit look (Run.raise e : Run ε (Bench σ τ) α) :=
  ⟨_, .raise e⟩

theorem emit (event : ε) : Rehearsed kit look (Run.emit event : Run ε (Bench σ τ) Unit) :=
  ⟨_, .emit event⟩

theorem ofFallible (x : Fallible α) :
    Rehearsed kit look (Run.ofFallible x : Run ε (Bench σ τ) α) :=
  ⟨_, .ofFallible x⟩

theorem bind {next : α → Run ε (Bench σ τ) β} (h : Rehearsed kit look r)
    (hnext : ∀ a, Rehearsed kit look (next a)) : Rehearsed kit look (r >>= next) := by
  obtain ⟨core, h⟩ := h
  obtain ⟨coreNext, hnext⟩ := Classical.skolem.mp hnext
  exact ⟨core >>= coreNext, h.bind hnext⟩

theorem rescue {handler : Fault → Run ε (Bench σ τ) α} (h : Rehearsed kit look r)
    (hhandler : ∀ e, Rehearsed kit look (handler e)) :
    Rehearsed kit look (r.rescue handler) := by
  obtain ⟨core, h⟩ := h
  obtain ⟨coreHandler, hhandler⟩ := Classical.skolem.mp hhandler
  exact ⟨core.rescue coreHandler, h.rescue hhandler⟩

theorem attempt (h : Rehearsed kit look r) : Rehearsed kit look r.attempt := by
  obtain ⟨core, h⟩ := h
  exact ⟨core.attempt, h.attempt⟩

theorem mapEvents {look' : ε' → Option Signal} {f : ε → ε'} (hf : ∀ e, look' (f e) = look e)
    (h : Rehearsed kit look r) : Rehearsed kit look' (r.mapEvents f) := by
  obtain ⟨core, h⟩ := h
  exact ⟨core.mapEvents f, h.mapEvents hf⟩

theorem repeatFrom {round : β → Run ε (Bench σ τ) (β ⊕ α)}
    (h : ∀ b, Rehearsed kit look (round b)) (b : β) :
    Rehearsed kit look (Run.repeatFrom round b) := by
  obtain ⟨coreRound, h⟩ := Classical.skolem.mp h
  exact ⟨Run.repeatFrom coreRound b, .repeatFrom h b⟩

theorem withBudget {f : Nat → Run ε (Bench σ τ) α} (h : ∀ n, Rehearsed kit look (f n)) :
    Rehearsed kit look (Run.withBudget f) := by
  obtain ⟨coreF, h⟩ := Classical.skolem.mp h
  exact ⟨Run.withBudget coreF, fun n w hw => (h n).dry n w hw, fun n w hw => (h n).real n w hw⟩

end Rehearsed

end Reflash
