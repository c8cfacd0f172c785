import Reflash.Archive.Unpack
import Reflash.Builtin.Table
import Reflash.Catalog
import Reflash.CommandLine.Arguments
import Reflash.CommandLine.Options
import Reflash.Console
import Reflash.Download
import Reflash.Record
import Reflash.Session
import Reflash.Tool.CommandLine

set_option autoImplicit false

/-! # The program

One installation from a command line: the device comes from a document or from the catalog, the
options from the arguments, and the answers from the terminal. The program is a run in a machine,
which holds all that it can see; what it cannot do by itself, starting other programs and fetching
files, is given to it (`Program.Means`). -/

namespace Reflash

/-- What the program runs on: files, a terminal with what happened at it, and a record. -/
structure Machine where
  files : FileStore
  terminal : Terminal := {}
  happened : List TerminalEvent := []
  record : Record := {}
deriving Inhabited

/-- How the program ends: the exit code, and what was wrong with the options if that was why. -/
structure Exit where
  code : Nat
  complaint : Option String := none
deriving Repr, DecidableEq

namespace Program

/-- A run of the program. -/
abbrev Work (α : Type) := Job (Hosted Machine) α

/-- What the program cannot do by itself. -/
structure Means where
  /-- Starts a command; nothing comes back if there is no such program. -/
  start : List String → Work (Option CommandResult)
  /-- Asks for what is at an address. -/
  get : Value → Work Response
  /-- The speed at which so many bytes have come. -/
  rate : Nat → Hosted Machine → Value := fun _ _ => .float 0.0

/-- Adds a line to the record. -/
def log (level : Level) (message : String) : Work Unit :=
  Host.log level "main" message

/-- The files of the machine. -/
def disk : Disk (Hosted Machine) where
  files w := w.outside.files
  put fs w := { w with outside := { w.outside with files := fs } }

/-! ## Surroundings -/

/-- A machine after something happened at its terminal. -/
def seen {α : Type} (t : Trail TerminalEvent Terminal α) (m : Machine) : Machine :=
  { m with terminal := t.world, happened := m.happened ++ t.events }

/-- A dialogue at the terminal of the machine. -/
def atTerminal {α : Type} (d : Dialogue α) : Work α :=
  fun n w =>
    let t := d n w.outside.terminal
    ⟨t.ending, [], { w with outside := seen t w.outside }⟩

/-- How commands are carried out. -/
def runner (means : Means) (a : Arguments) : Runner (Hosted Machine) :=
  if a.dryRun then Command.dry else Command.started means.start

/-- What downloads are made with. -/
def downloads (means : Means) : Download.Means (Hosted Machine) :=
  { disk, get := means.get, rate := means.rate }

/-- The tools that the program works with. -/
def tools (means : Means) (a : Arguments) : Tools (Hosted Machine) where
  hasAccess tool := (CommandLineTool.usual tool a.dryRun).hasAccess (runner means a)
  perform call report :=
    (CommandLineTool.usual call.tool a.dryRun).perform (runner means a) call report
  systemImage := none
  download := Download.run (downloads means)
  checkFile := Download.checkFile (downloads means)
  unpack := Archive.unpack disk a.dryRun
  makeDirectories := disk.ensureDirectory
  copyFile := disk.copy

/-- The terminal and the tools. A notice is shown as far as it can be. -/
def host (means : Means) (a : Arguments) : Host (Hosted Machine) where
  notify n w := { w with outside := seen (Console.notify n 0 w.outside.terminal) w.outside }
  decide r := atTerminal (Console.decide a.assumeYes r)
  pause := Session.suspend
  tools := tools means a

/-- What installations are made with. -/
def installer (means : Means) (a : Arguments) : Installer Machine where
  table := Builtin.table
  host := host means a
  cacheRoot := .ofText a.cache
  catalog := some fun codename => do
    return .mapping (← Catalog.device ⟨.ofText a.catalog⟩ (← disk.current) codename)

/-! ## The course of an installation -/

/-- The device that the document at a path describes. -/
def loadDevice (path : String) : Work Device := do
  Host.log .info "config_model" ("Loading device config " ++ path)
  Device.ofEntries (← Document.load (← disk.current) (.ofText path))

/-- Chooses the device; says whether there is one to go on with. -/
def chooseDevice (i : Installer Machine) (a : Arguments) : Work Bool := do
  match (a.config.filter (· != "")), (a.device.filter (· != "")) with
  | some path, _ =>
    Session.setDevice (← loadDevice path)
    return true
  | none, some codename => i.setDevice codename
  | none, none => Run.raise (.invalid "either --config or --device is required")

/-- The names of the operating systems to choose from, unless the user does not go on. -/
def offered (i : Installer Machine) : Work (Option (List String)) := do
  match ← i.selectSystem.attempt with
  | .ok names => return some names
  | .error (.aborted message) =>
    log .warning ("Aborted before installation: " ++ message)
    return none
  | .error e => Run.raise e

/-- Makes one installation; says whether its end was reached. -/
def install (means : Means) (a : Arguments) (options : Entries) : Work Bool := do
  let i := installer means a
  i.begin_
  if !(← chooseDevice i a) then return false
  let some names ← offered i | return false
  log .info ("Available operating systems: " ++ ", ".intercalate names)
  Run.each (fun (var, value) => Session.setOption var value) options
  let index ← Installer.findSystem a.system
  i.install (.int index)

/-- Opens the record. -/
def openRecord (a : Arguments) : Work Unit := do
  let w ← Run.world fun (w : Hosted Machine) => (w.outside, w)
  let record := { w.record with threshold := Level.info.rank }
  let (record, chosen, files) ← record.setUp w.files a.log true
  Run.world fun w => ((), { w with outside := { w.outside with files, record } })
  Run.each (fun line => Run.emit (.logged line)) (w.record.announcement a.log chosen)

/-- Runs the program with its arguments. -/
def run (means : Means) (defaults : Arguments) (args : List String) : Work Exit := do
  match Arguments.read defaults args with
  | .refused => return { code := 2 }
  | .help => return { code := 0 }
  | .run a =>
    openRecord a
    match Options.parse a.options with
    | .error e =>
      if e.isUnusable then return { code := 2, complaint := some e.text } else Run.raise e
    | .ok options => return { code := if ← install means a options then 0 else 1 }

/-- The files of a machine with the record of what happened, and the lines of it to be shown. -/
def recorded (stamp : String) (signals : List Signal) (m : Machine) : FileStore × List String :=
  m.record.addAll m.files stamp (signals.filterMap fun s => s.logLine?.map LogLine.entry)

end Program

end Reflash
