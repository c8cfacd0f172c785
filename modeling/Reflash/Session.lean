import Reflash.Run.Workflow

set_option autoImplicit false

/-! # Installer sessions

A session keeps what was chosen, the device and the options, and makes one installation at a time.
An installation first puts three questions to the user, each only if the operating system calls for
it: whether the prerequisites are met, whether the terms are accepted, and how to set the options.
Only then are the settings frozen and the steps run.

Other calls may reach the session while an installation waits for an answer; they are carried out
at once. `Installer.operate` makes a session of surroundings that can make such calls. A
cancellation only takes note at first: it arrives at the next point where the installation waits. -/

namespace Reflash

/-- The state of a session. -/
structure Session where
  /-- The device that was chosen last. -/
  config : Option Device := none
  /-- What was set for the next installations. -/
  options : Entries := []
  /-- Whether an installation is under way. -/
  active : Bool := false
  /-- Whether its cancellation was asked for. -/
  cancelRequested : Bool := false
  /-- Whether a cancellation is still to arrive. -/
  pending : Bool := false
deriving Inhabited

/-- A world with a session in it. -/
structure Hosted (σ : Type) where
  session : Session
  outside : σ

namespace Session

variable {σ : Type}

/-- Adds a line to the record. -/
def log (level : Level) (message : String) : Job σ Unit :=
  Host.log level "installer" message

/-- The state of the session. -/
def current : Job (Hosted σ) Session :=
  Run.world fun w => (w.session, w)

/-- Changes the state of the session. -/
def modify (f : Session → Session) : Job (Hosted σ) Unit :=
  Run.world fun w => ((), { w with session := f w.session })

/-- Waits. A cancellation that was asked for arrives here. -/
def suspend : Job (Hosted σ) Unit := do
  if (← current).pending then
    modify fun s => { s with pending := false }
    Run.raise (.cancelled "")

/-- Asks for the cancellation of the installation, if one is under way. -/
def cancel : Job (Hosted σ) Unit := do
  if (← current).active then
    log .warning "Cancelling installation"
    modify fun s => { s with cancelRequested := true, pending := true }

/-- The device that was chosen, which must be known by now. -/
def requireConfig : Job (Hosted σ) Device := do
  match (← current).config with
  | some device => return device
  | none => Run.raise (.runtime "no device selected")

/-- Chooses a device. -/
def setDevice (device : Device) : Job (Hosted σ) Unit :=
  modify fun s => { s with config := some device }

/-- Chooses the device that a document describes. The choice stays as it was if the document is
not well-formed. -/
def setConfig (document : Value) : Job (Hosted σ) Device := do
  let device ← Device.ofEntries (← document.asMapping)
  setDevice device
  return device

/-- Sets an option for the next installations. -/
def setOption (var value : Value) : Job (Hosted σ) Unit := do
  if (← current).active then
    Run.raise (.runtime "cannot change options while an installation is running")
  if !var.isKey then Run.raise .mistyped
  modify fun s => { s with options := s.options.put var value }

end Session

/-- What installations are made with. -/
structure Installer (σ : Type) where
  table : ActionTable (Hosted σ)
  host : Host (Hosted σ)
  cacheRoot : Path
  /-- The document of a device by its codename, if there is a catalog. -/
  catalog : Option (String → Job (Hosted σ) Value) := none
  reconnections : Int := defaultReconnections

namespace Installer

variable {σ : Type}

open Session (log)

/-- What the record says when a session begins. -/
def begin_ (i : Installer σ) : Job (Hosted σ) Unit :=
  log .debug ("Registered actions: " ++ ", ".intercalate i.table.actionIds)

/-! ## Choosing -/

/-- Chooses the device of a codename from the catalog; says whether it is supported. -/
def setDevice (i : Installer σ) (codename : String) : Job (Hosted σ) Bool := do
  i.host.announce "Preparing installation" ("Fetching " ++ codename ++ " config")
  match i.catalog with
  | none => Run.raise (.runtime "no device catalog configured")
  | some document =>
    let fetched ← (do
      i.host.pause
      discard (Session.setConfig (← document codename)) : Job (Hosted σ) Unit).attempt
    match fetched with
    | .ok () =>
      log .info ("Device selected: " ++ codename)
      return true
    | .error e =>
      if !e.isOrdinary then Run.raise e
      log .error ("Failed to load config for " ++ codename ++ ": " ++ e.text)
      i.host.tell (.deviceUnsupported codename)
      return false

/-- Shows the instructions for unlocking, if there are any, and returns the names of the operating
systems to choose from. -/
def selectSystem (i : Installer σ) : Job (Hosted σ) (List String) := do
  let device ← Session.requireConfig
  let unlock ← device.unlock
  if !unlock.isEmpty then
    let decision ← i.host.ask .unlock
      (.ofFields [("unlock", .list unlock), ("user_actions", .mapping (← device.userActions))])
    if !decision.resumes then Run.raise (.aborted "unlock instructions declined")
  Run.ofFallible (device.operatingSystems.mapM OperatingSystem.shownName)

/-! ## Questions before an installation -/

/-- Asks whether the prerequisites are met. -/
def askPrerequisites (i : Installer σ) (device : Device) (os : OperatingSystem) :
    Job (Hosted σ) Unit := do
  let prerequisites ← os.prerequisites
  if prerequisites.isEmpty then return
  let decision ← i.host.ask .prerequisites
    (.ofFields [("prerequisites", .list prerequisites),
      ("user_actions", .mapping (← device.userActions))])
  if !decision.resumes then Run.raise (.aborted "prerequisites not met")

/-- Asks whether the terms are accepted. -/
def askTerms (i : Installer σ) (os : OperatingSystem) : Job (Hosted σ) Unit := do
  if !os.eula.truth then return
  let decision ← i.host.ask .eula (.ofFields [("eula", os.eula)])
  if !decision.resumes then Run.raise (.aborted "EULA declined")

/-- Asks how to set the options: the settings with what the user decided. -/
def askOptions (i : Installer σ) (options : List Value) (settings : Settings) :
    Job (Hosted σ) Settings := do
  log .info "Configuring..."
  let decision ← i.host.ask .configure
    (.ofFields [("options", .list options), ("values", .mapping settings.data)])
  if !decision.resumes then Run.raise (.aborted "configuration cancelled")
  match decision.value.orElse (.mapping []) with
  | .mapping decided => settings.update decided
  | _ => Run.raise .mistyped

/-- The settings of an installation: the defaults of the operating system, over them what was set
in the session, and over that what the user decides. -/
def configure (i : Installer σ) (os : OperatingSystem) : Job (Hosted σ) Settings := do
  let defaults ← Settings.update {} (← os.optionDefaults)
  let preset ← defaults.update (← Session.current).options
  let options ← os.options
  let settings ←
    if options.isEmpty then
      log .debug "Nothing to configure"
      pure preset
    else i.askOptions options preset
  let settings := settings.freeze
  Host.logText .info "installer"
    ((Value.mapping settings.data).exact.map fun text => "Settings: " ++ text)
  return settings

/-! ## Installing -/

/-- The step that every installation ends with. -/
def endStep : Step :=
  let finish : Action := .named "core:end"
  { actions := [finish], raw := [(.str "actions", .list [finish.toValue])] }

/-- The workflow of an installation whose settings are known. -/
def workflow (i : Installer σ) (device : Device) (os : OperatingSystem) (settings : Settings) :
    Workflow (Hosted σ) :=
  { table := i.table
    ctx := {
      device
      system := os
      settings
      host := i.host
      cache := ⟨i.cacheRoot, device.codename⟩ }
    reconnections := i.reconnections }

/-- Puts the questions and runs the steps; says whether the end was reached. -/
def conduct (i : Installer σ) (device : Device) (os : OperatingSystem) : Job (Hosted σ) Bool := do
  i.askPrerequisites device os
  i.askTerms os
  let settings ← i.configure os
  ((i.workflow device os settings).run (os.steps ++ [endStep])).toJob

/-- Ends an installation early, with a line in the record. -/
def stop (i : Installer σ) (message : String) : Job (Hosted σ) Bool := do
  log .warning message
  i.host.tell .idle
  return false

/-- What becomes of an installation that a cause ended before the steps were run or that was
cancelled: it counts as stopped if that was on purpose. -/
def stopped (i : Installer σ) (cause : Fault) : Job (Hosted σ) Bool := do
  match cause with
  | .killed message | .aborted message => i.stop ("Installation aborted: " ++ message)
  | .cancelled _ =>
    if (← Session.current).cancelRequested then i.stop "Installation cancelled"
    else Run.raise cause
  | _ => Run.raise cause

/-- The line that an installation begins with. It needs the names of the device and of the operating
system. -/
def heading (device : Device) (os : OperatingSystem) : Fallible String :=
  return "Installing " ++ (← os.shownName) ++ " on your " ++ (← device.shownName) ++ " (" ++
    (← device.shownCodename) ++ ")"

/-- Installs an operating system of the chosen device; says whether the end was reached. -/
def install (i : Installer σ) (index : Value) : Job (Hosted σ) Bool := do
  if (← Session.current).active then
    Run.raise (.runtime "an installation is already running")
  let device ← Session.requireConfig
  let os ← device.selectSystem (← index.asWhole)
  log .info (← heading device os)
  Session.modify fun s => { s with active := true, cancelRequested := false }
  let result ← ((i.conduct device os).rescue i.stopped).attempt
  Session.modify fun s => { s with active := false }
  Run.ofFallible result

/-! ## Calls -/

/-- The index of an operating system of the chosen device, by number or by name. -/
def findSystem (text : String) : Job (Hosted σ) Nat := do
  match (← Session.current).config with
  | some device => device.findSystem text
  | none => Run.raise .mistyped

/-- What the session shows of its state. -/
def state : Job (Hosted σ) Value := do
  let s ← Session.current
  let codename : Value :=
    match s.config with
    | some device => .str device.codename
    | none => .null
  return .ofFields [("active", .bool s.active), ("codename", codename)]

/-- Carries out a call. -/
def call (i : Installer σ) : SessionCall → Job (Hosted σ) Value
  | .setConfig document => return .str (← Session.setConfig document).codename
  | .setDevice codename => return .bool (← i.setDevice codename)
  | .selectSystem => return .list ((← i.selectSystem).map .str)
  | .setOption var value => do Session.setOption var value; return .null
  | .install index => return .bool (← i.install index)
  | .cancel => do Session.cancel; return .null
  | .findSystem text => return .int (← findSystem text)
  | .state => state

/-- What surrounds a session: given how the session is called, what installations are made with. -/
abbrev Surroundings (σ : Type) :=
  (SessionCall → Job (Hosted σ) Value) → Installer σ

/-- Carries out a call to the session that the surroundings make, in which calls may be nested as
deep as `depth` says. -/
def operateTo (surroundings : Surroundings σ) : Nat → SessionCall → Job (Hosted σ) Value
  | 0, _ => Run.unfinished
  | depth + 1, c => (surroundings (operateTo surroundings depth)).call c

/-- A call that reaches the session while it waits; how it ended is seen, and does not end what
waits. -/
def visit (operate : SessionCall → Job (Hosted σ) Value) (c : SessionCall) :
    Job (Hosted σ) Unit := do
  let answer ← (operate c).attempt
  Run.emit (.visited c answer (← Session.current).active)

/-- Carries out a call of its own. A cancellation that has not arrived when the call would return
takes the place of its result. -/
def operate (surroundings : Surroundings σ) (c : SessionCall) : Job (Hosted σ) Value := do
  let answer ← (Run.withBudget fun n => operateTo surroundings n c).attempt
  let late := (← Session.current).pending
  Session.modify fun s => { s with pending := false }
  match answer with
  | .ok v => if late then Run.raise (.cancelled "") else return v
  | .error e => Run.raise e

end Installer

end Reflash
