import Reflash.Device
import Reflash.File.Cache
import Reflash.Run.Basic
import Reflash.Run.Signal
import Reflash.Settings
import Reflash.Value.Arithmetic

set_option autoImplicit false

/-! # Shell, tools and context

What a run needs of its surroundings: a shell that shows notices and answers questions, tools that
reach the device, the network and the files, and the context of one installation. Shell and tools
are records of functions, so a run can be made, and reasoned about, with any of them. -/

namespace Reflash

/-- A run of handlers and tools. -/
abbrev Job (σ α : Type) := Run Signal σ α

/-- The programs that speak to a device. -/
inductive DeviceTool where
  | adb
  | fastboot
  | heimdall
deriving Repr, DecidableEq

namespace DeviceTool

/-- The name of the program. -/
def text : DeviceTool → String
  | adb => "adb"
  | fastboot => "fastboot"
  | heimdall => "heimdall"

/-- The name in messages to the user. -/
def label : DeviceTool → String
  | adb => "Adb"
  | fastboot => "Fastboot"
  | heimdall => "Heimdall"

end DeviceTool

/-- What a device can be asked to do. Fields of payloads are passed on as they stand there. -/
inductive DeviceCall where
  | adbFormat (partition : Value)
  | sideload (file : Value)
  | adbReboot (state : Value)
  | reconnect
  | flash (images : List Value)
  | erase (partition : Value)
  | fastbootFormat (partition fsType size : Value)
  | boot (image partition : Value)
  | update (image : Value) (wipe : Bool)
  | fastbootReboot
  | rebootBootloader
  | continueBoot
  | setActive (slot : Value)
  | oemUnlock (code : Value)
  | heimdallFlash (images : List Value)

namespace DeviceCall

/-- The tool that does it. -/
def tool : DeviceCall → DeviceTool
  | adbFormat _ | sideload _ | adbReboot _ | reconnect => .adb
  | heimdallFlash _ => .heimdall
  | _ => .fastboot

/-- The name of the call in the record of a run. -/
def method : DeviceCall → String
  | adbFormat _ | fastbootFormat .. => "format"
  | sideload _ => "sideload"
  | adbReboot _ | fastbootReboot => "reboot"
  | reconnect => "reconnect"
  | flash _ | heimdallFlash _ => "flash"
  | erase _ => "erase"
  | boot .. => "boot"
  | update .. => "update"
  | rebootBootloader => "reboot_bootloader"
  | continueBoot => "continue_boot"
  | setActive _ => "set_active"
  | oemUnlock _ => "oem_unlock"

/-- The arguments of the call in the record of a run. -/
def args : DeviceCall → List Value
  | adbFormat partition | erase partition => [partition]
  | sideload file => [file]
  | adbReboot state => [state]
  | flash images | heimdallFlash images => [.list images]
  | fastbootFormat partition fsType size => [partition, fsType, size]
  | boot image partition => [image, partition]
  | update image wipe => [image, .bool wipe]
  | setActive slot => [slot]
  | oemUnlock code => [code]
  | reconnect | fastbootReboot | rebootBootloader | continueBoot => []

/-- The signal of the call. -/
def signal (c : DeviceCall) : Signal :=
  .called c.tool.text c.method c.args

end DeviceCall

/-- What a download tells while it goes on. -/
structure DownloadReports (σ : Type) where
  /-- The part done of the present file, and the speed. -/
  progress : Value → Value → Job σ Unit
  /-- How many of how many files are done. -/
  next : Value → Value → Job σ Unit
  /-- The name of what goes on. -/
  activity : String → Job σ Unit

/-- The tools that one run works with. A job that reports how far it is gets the run that passes
the report on. -/
structure Tools (σ : Type) where
  /-- Whether a device can be reached. -/
  hasAccess : DeviceTool → Job σ Bool
  /-- Makes the device do something. -/
  perform : DeviceCall → (Value → Job σ Unit) → Job σ Unit
  /-- Downloads and installs a system image with the given options, if there is a client for it. -/
  systemImage : Option (Entries → (Value → Job σ Unit) → Job σ Unit)
  /-- Brings the listed files to their places. -/
  download : List Value → DownloadReports σ → Job σ Unit
  /-- Whether a file is there and has the given checksum, if one is given. -/
  checkFile : Path → Value → Job σ Bool
  /-- Unpacks an archive into a directory. -/
  unpack : Path → Path → Job σ Unit
  /-- Makes a directory and those above it. -/
  makeDirectories : Path → Job σ Unit
  /-- Copies a file that the user named. -/
  copyFile : String → Path → Job σ Unit

/-- The surroundings of a run. -/
structure Host (σ : Type) where
  /-- Shows a notice. -/
  notify : Notice → σ → σ
  /-- Answers a question, once the user has. -/
  decide : PromptRequest → Job σ Decision
  /-- Waits a moment. A cancellation that was asked for can arrive here. -/
  pause : Job σ Unit
  tools : Tools σ

/-- Everything that belongs to one installation. -/
structure Context (σ : Type) where
  device : Device
  system : OperatingSystem
  settings : Settings
  host : Host σ
  cache : Cache

namespace Host

variable {σ : Type}

/-- Tells the shell something. -/
def tell (host : Host σ) (notice : Notice) : Job σ Unit := do
  Run.emit (.notified notice)
  Run.world fun w => ((), host.notify notice w)

/-- Adds a line to the record. -/
def log {σ : Type} (level : Level) (source message : String) : Job σ Unit :=
  Run.emit (.logged ⟨level, source, message⟩)

/-- Adds a line to the record whose text is made only then. If it cannot be made the line is left
out, and the run goes on. -/
def logText {σ : Type} (level : Level) (source : String) (message : Fallible String) :
    Job σ Unit :=
  match message with
  | .ok message => log level source message
  | .error _ => return

/-- Asks the user. A question that is cancelled ends the run as killed. -/
def ask (host : Host σ) (prompt : Prompt) (data : Value := .null) (action : Option String := none)
    (step : Option Entries := none) (cause : Option String := none) : Job σ Decision := do
  let data ← Run.ofFallible (if data.truth then data.asMapping else .ok [])
  let request : PromptRequest := { prompt, data, action, step, cause }
  log .debug "events" ("Waiting for user decision: " ++ prompt.text)
  Run.emit (.prompted request)
  let decision ← (host.decide request).rescue fun
    | .cancelled _ => Run.raise (.killed (prompt.text ++ " prompt cancelled"))
    | e => Run.raise e
  log .debug "events" ("User decided " ++ decision.choice.text ++ " on " ++ prompt.text)
  return decision

/-- Tells what goes on, with its headline and its details. -/
def announce (host : Host σ) (status under : String) (determinate : Bool := true) :
    Job σ Unit := do
  host.tell .idle
  host.tell (.status status (some determinate))
  host.tell (.under under)

/-- Passes a part done on as a percentage. -/
def reportProgress (host : Host σ) (fraction : Value) : Job σ Unit := do
  match fraction.hundredfold? with
  | some percent => host.tell (.progress percent)
  | none => Run.raise .mistyped

/-- Makes the device do something. -/
def perform (host : Host σ) (call : DeviceCall) : Job σ Unit := do
  Run.emit call.signal
  host.tools.perform call host.reportProgress

end Host

namespace Context

variable {σ : Type}

/-- The place in the cache of a file that a payload names with its group. -/
def cachedFile (ctx : Context σ) (payload : Value) : Fallible Value := do
  let group ← payload.item "group"
  let file ← payload.item "file"
  return .str (ctx.cache.path (← group.asText) (← file.asText)).text

end Context

end Reflash
