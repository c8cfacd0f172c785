import Mathlib
import Reflash.Proofs.Handlers
import Reflash.Proofs.Insertion
import Reflash.Proofs.ToolRehearsal

set_option autoImplicit false

/-! # Dry runs

A dry run of some steps and a run of the same steps, with the device tools as commands and with the
same surroundings apart from them: the same settings, answers, downloads, archives and images.

Every run of steps has a rehearsal (`Workflow.run_rehearsed`), since what flows and handlers are put
together of keeps it. So the dry run, which does what the rehearsal does, starts no process, and it
foretells the other run if no command fails there (`Workflow.dry_run_foretells`). -/

namespace Reflash

open Run

variable {σ τ α : Type}

/-! ## Surroundings with commands for tools -/

/-- What a host on the rest of the world is with commands for device tools, in place of tools of its
own. What is reported on the way of a download reaches the rest of the world only. -/
def Host.withCommands (host : Host σ) (kit : ToolKit) (launch : Launch τ) : Host (Bench σ τ) where
  notify notice w := { w with rest := host.notify notice w.rest }
  decide request := (host.decide request).aside
  pause := host.pause.aside
  tools := {
    hasAccess := fun tool n w => (kit.tool tool w.dryRun).hasAccess (Bench.runner launch) n w
    perform := fun call report n w =>
      (kit.tool call.tool w.dryRun).perform (Bench.runner launch) call report n w
    systemImage := host.tools.systemImage.map fun install options report n w =>
      (install options fun part => w.restrict (report part)).aside n w
    download := fun files reports n w =>
      (host.tools.download files {
        progress := fun fraction speed => w.restrict (reports.progress fraction speed)
        next := fun current total => w.restrict (reports.next current total)
        activity := fun name => w.restrict (reports.activity name) }).aside n w
    checkFile := fun path checksum => (host.tools.checkFile path checksum).aside
    unpack := fun archive dir => (host.tools.unpack archive dir).aside
    makeDirectories := fun path => (host.tools.makeDirectories path).aside
    copyFile := fun source target => (host.tools.copyFile source target).aside }

/-- The context of an installation with commands for device tools. -/
def Context.withCommands (ctx : Context σ) (kit : ToolKit) (launch : Launch τ) :
    Context (Bench σ τ) :=
  { ctx with host := ctx.host.withCommands kit launch }

section

variable (ctx : Context σ) (kit : ToolKit) (launch : Launch τ)

/-- Having a rehearsal is a closed property. -/
theorem Context.withCommands_closed : Job.Closed (ctx.withCommands kit launch).host
    fun {_ : Type} (job : Job (Bench σ τ) _) => Rehearsed kit some job where
  emit s _ := .emit s
  notify notice := ⟨Run.world fun w => ((), ctx.host.notify notice w), .aside _⟩
  ofFallible x := .ofFallible x
  bind hjob hnext := hjob.bind hnext
  rescue hjob hhandler := hjob.rescue hhandler
  attempt hjob := hjob.attempt

/-- Everything that a host with commands for tools does has a rehearsal. -/
theorem Context.withCommands_keeps : (ctx.withCommands kit launch).host.Keeps
    fun {_ : Type} (job : Job (Bench σ τ) _) => Rehearsed kit some job where
  decide request := ⟨_, .aside _⟩
  pause := ⟨_, .aside _⟩
  hasAccess tool := ⟨_, CommandLineTool.hasAccess_rehearses tool⟩
  perform call report hreport := by
    obtain ⟨coreReport, hreport⟩ := Classical.skolem.mp hreport
    exact ⟨_, .switch fun dryRun => CommandLineTool.perform_rehearses hreport call dryRun⟩
  systemImage := by
    intro install hinstall options report hreport
    obtain ⟨coreReport, hreport⟩ := Classical.skolem.mp hreport
    obtain ⟨install', -, rfl⟩ := Option.map_eq_some_iff.mp hinstall
    -- It reports to the rest of the world, where a report is the same as its rehearsal.
    refine ⟨install' options coreReport, ?_⟩
    simp only [fun w part => (hreport part).restrict_eq w]
    exact .aside _
  download := by
    rintro files reports ⟨hprogress, hnext, hactivity⟩
    obtain ⟨coreProgress, hprogress⟩ :=
      Classical.skolem.mp fun fraction => Classical.skolem.mp (hprogress fraction)
    obtain ⟨coreNext, hnext⟩ :=
      Classical.skolem.mp fun current => Classical.skolem.mp (hnext current)
    obtain ⟨coreActivity, hactivity⟩ := Classical.skolem.mp hactivity
    refine ⟨ctx.host.tools.download files ⟨coreProgress, coreNext, coreActivity⟩, ?_⟩
    simp only [Context.withCommands, Host.withCommands,
      fun w fraction speed => (hprogress fraction speed).restrict_eq w,
      fun w current total => (hnext current total).restrict_eq w,
      fun w name => (hactivity name).restrict_eq w]
    exact .aside _
  checkFile path checksum := ⟨_, .aside _⟩
  unpack archive dir := ⟨_, .aside _⟩
  makeDirectories path := ⟨_, .aside _⟩
  copyFile source target := ⟨_, .aside _⟩

end

/-! ## Runs of steps -/

namespace Workflow

/-- The workflow of the built-in handlers with commands for device tools. -/
def withCommands (ctx : Context σ) (reconnections : Int) (kit : ToolKit) (launch : Launch τ) :
    Workflow (Bench σ τ) :=
  { table := Builtin.table, ctx := ctx.withCommands kit launch, reconnections }

/-- Having a rehearsal is kept by what flows are put together of. -/
theorem rehearsed_congruence (kit : ToolKit) : Flow.Congruence
    fun {_ : Type} (flow _ : Flow (Bench σ τ) _) => Rehearsed kit Event.signal? flow where
  pure a := .pure a
  raise e := .raise e
  unfinished := ⟨_, .unfinished⟩
  emit e := .emit e
  bind h hnext := h.bind hnext
  rescue h hhandler := h.rescue hhandler
  attempt h := h.attempt
  inside _ h := h.mapEvents fun _ => rfl
  repeatFrom h b := .repeatFrom h b

variable (ctx : Context σ) (reconnections : Int) (kit : ToolKit) (launch : Launch τ)

theorem handler_rehearsed {id : String} {handler : Handler (Bench σ τ)}
    (h : Builtin.table.handler? id = some handler) (payload : Value) :
    Rehearsed kit some (handler payload (ctx.withCommands kit launch)) := by
  have hclosed := ctx.withCommands_closed kit launch
  have hhost := ctx.withCommands_keeps kit launch
  have telling (notice : Notice) :
      Rehearsed kit some ((ctx.withCommands kit launch).host.tell notice) :=
    (Rehearsed.emit _).bind fun _ => hclosed.notify notice
  refine Builtin.handler_keeps hclosed hhost (fun tool => ?_) h payload fun _ => ?_
  · exact .repeatFrom (fun _ => Builtin.waitRound_keeps hclosed hhost tool) ()
  · exact (telling _).bind fun _ => .bind (.ofFallible _) fun _ => (telling _).bind fun _ =>
      (telling _).bind fun _ => .pure _

theorem withCommands_respects : (withCommands ctx reconnections kit launch).Respects
    fun {_ : Type} (flow _ : Flow (Bench σ τ) _) => Rehearsed kit Event.signal? flow where
  handles _ _ payload h :=
    (handler_rehearsed ctx kit launch h payload).mapEvents fun _ => rfl
  pauses := (ctx.withCommands_keeps kit launch).pause.mapEvents fun _ => rfl
  asks prompt data action step cause :=
    ((ctx.withCommands_closed kit launch).ask (ctx.withCommands_keeps kit launch) prompt data
      action step cause).mapEvents fun _ => rfl

/-- Every run of steps has a rehearsal. -/
theorem run_rehearsed (steps : List Step) :
    Rehearsed kit Event.signal? ((withCommands ctx reconnections kit launch).run steps) := by
  have hclosed := ctx.withCommands_closed kit launch
  have hsteps : Rehearsed kit Event.signal?
      ((withCommands ctx reconnections kit launch).runSteps steps) :=
    .withBudget fun depth => (withCommands_respects ctx reconnections kit launch).runStepsTo
      (rehearsed_congruence kit) depth steps
  refine .rescue (hsteps.bind fun _ => .pure true) fun e => ?_
  split
  · have hend : Rehearsed kit some (do
        Host.log .warning "interpreter" ("Aborting run: " ++ e.text)
        (ctx.withCommands kit launch).host.tell .idle
        return false : Job (Bench σ τ) Bool) :=
      hclosed.bind (hclosed.log _ _ _) fun _ => hclosed.bind (hclosed.tell _ rfl) fun _ =>
        hclosed.pure false
    exact hend.mapEvents fun _ => rfl
  · exact .raise e

end Workflow

namespace ToolKit

/-- In the run, which began without processes, every command on the record was started, and every
process succeeded. -/
structure Flawless (kit : ToolKit) (t : Trail Signal (Bench σ τ) α) : Prop where
  started : t.world.processes.length = (recorded some t.events).length
  succeeded : ∀ p ∈ t.world.processes, kit.Succeeded p

/-- The dry run showed what the other run was like: both ended the same way, with the same notices
and questions and the same effect on the rest of the world, and the commands that the dry run
recorded are those that the other one carried out, but for the access polls. -/
structure Foretold (kit : ToolKit) (dry real : Trail Signal (Bench σ τ) α) : Prop where
  ending : real.ending = dry.ending
  rest : real.world.rest = dry.world.rest
  shown : shown some real.events = shown some dry.events
  executed : kit.executed real.world.processes = recorded some dry.events

end ToolKit

namespace Workflow

/-- A dry run starts no process and leaves the devices alone, whatever happens. And it foretells the
run with the same surroundings that starts processes, if no command of that run fails. -/
theorem dry_run_foretells (ctx : Context σ) (reconnections : Int) (kit : ToolKit)
    (launch : Launch τ) (steps : List Step) (n : Nat) (rest : σ) (devices : τ) :
    let run := ((withCommands ctx reconnections kit launch).run steps).toJob n
    let dry := run { rest, devices, dryRun := true }
    let real := run { rest, devices }
    (dry.world.processes = [] ∧ dry.world.devices = devices) ∧
      (kit.Flawless real → kit.Foretold dry real) := by
  intro run dry real
  obtain ⟨core, hcore⟩ := run_rehearsed ctx reconnections kit launch steps
  have hdry := hcore.dry n { rest, devices, dryRun := true } rfl
  obtain ⟨ps, hcarries⟩ := hcore.real n { rest, devices } rfl
  -- To look at the signals of a job is to look at the events of the flow.
  have hrecorded (es : List Event) :
      recorded some (es.filterMap Event.signal?) = recorded Event.signal? es := by
    simp [recorded, List.filterMap_filterMap]
  have hshown (es : List Event) :
      shown some (es.filterMap Event.signal?) = shown Event.signal? es := by
    simp [shown, List.filterMap_filterMap]
  have hprocesses : real.world.processes = ps := hcarries.processes
  have hevents : dry.events = (core n rest).events.filterMap Event.signal? :=
    congrArg (fun t => t.events.filterMap Event.signal?) hdry
  have hending : dry.ending = (core n rest).ending := congrArg Trail.ending hdry
  have hworld : dry.world = { rest := (core n rest).world, devices, dryRun := true } :=
    congrArg Trail.world hdry
  refine ⟨⟨by rw [hworld], by rw [hworld]⟩, fun hflawless => ?_⟩
  have hreal : real.events = (((withCommands ctx reconnections kit launch).run steps) n
      { rest, devices }).events.filterMap Event.signal? := rfl
  have hstarted : ps.length = (recorded some real.events).length := hprocesses ▸ hflawless.started
  rw [hreal, hrecorded] at hstarted
  obtain ⟨hending', hrest, hshown', hexecuted⟩ :=
    hcarries.agrees hstarted (hprocesses ▸ hflawless.succeeded)
  refine ⟨hending'.trans hending.symm, ?_, ?_, ?_⟩
  · rw [hworld]
    exact hrest
  · rw [hevents, hshown]
    exact (hshown _).trans hshown'
  · rw [hprocesses, hevents, hrecorded]
    exact hexecuted.symm

/-- A reconnection after waiting for the device: the run starts two processes, and the dry run,
which starts none, has foretold the one that is no access poll. -/
theorem reconnection_foretold :
    let ctx : Context Unit := {
      device := default, system := default, settings := {}, host := .answering {}
      cache := default }
    let launch : Launch Nat := fun argv count =>
      (.returned (some { argv := argv.map .str, stdout := "device" }), count + 1)
    let step : Step := { actions := [.named "adb:wait", .named "adb:reconnect"] }
    let run := ((withCommands ctx 3 {} launch).run [step]).toJob 1
    let dry := run { rest := (), devices := 0, dryRun := true }
    let real := run { rest := (), devices := 0 }
    ToolKit.Flawless {} real ∧ ToolKit.Foretold {} dry real ∧ real.world.devices = 2 ∧
      dry.world.devices = 0 ∧ dry.ending = .returned true ∧
      recorded some dry.events = [["adb", "reconnect"]] := by
  intro ctx launch step run dry real
  have hended : dry.ending = .returned true := by cbv
  have hdevices : real.world.devices = 2 := by cbv
  have hcommands : recorded some dry.events = [["adb", "reconnect"]] := by cbv
  have hprocesses : real.world.processes = [["adb", "get-state"], ["adb", "reconnect"]].map
      fun argv => ⟨argv, some { argv := argv.map .str, stdout := "device" }⟩ := by cbv
  have hrecorded : recorded some real.events = [["adb", "get-state"], ["adb", "reconnect"]] := by
    cbv
  have hflawless : ToolKit.Flawless {} real := by
    constructor
    · rw [hprocesses, hrecorded]
      rfl
    · intro p hp
      rw [hprocesses] at hp
      obtain ⟨argv, -, rfl⟩ := List.mem_map.mp hp
      exact ⟨_, rfl, rfl, fun tool _ => by cases tool <;> cbv⟩
  obtain ⟨⟨-, hidle⟩, hforetold⟩ := dry_run_foretells ctx 3 {} launch [step] 1 () 0
  exact ⟨hflawless, hforetold hflawless, hdevices, hidle, hended, hcommands⟩

end Workflow

end Reflash
