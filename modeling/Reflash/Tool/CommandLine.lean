import Reflash.Tool.Command
import Reflash.Tool.Diagnosis

set_option autoImplicit false

/-! # Device tools as commands

Each request to a device is one command of its tool, or a few of them in a row, which stop at the
first that fails. What the command printed is looked at here and nowhere else: a failure leaves
with its kind. -/

namespace Reflash

/-- One device tool: which program to start, for which device, and whether in a dry run. -/
structure CommandLineTool where
  tool : DeviceTool
  executable : String
  serial : String := ""
  dryRun : Bool := false

namespace CommandLineTool

variable {σ : Type}

/-- A tool whose program is found under its usual name. -/
def usual (tool : DeviceTool) (dryRun : Bool := false) : CommandLineTool :=
  { tool, executable := tool.text, dryRun }

/-- The words of a command: download mode knows no serial numbers. -/
def argv (t : CommandLineTool) (args : List Value) : List Value :=
  let serial : List Value :=
    if t.tool = .heimdall || t.serial.isEmpty then [] else [.str "-s", .str t.serial]
  .str t.executable :: serial ++ args

/-- Carries out a command, whatever its exit code. A missing program is a failure without kind. -/
def poll (t : CommandLineTool) (runner : Runner σ) (args : List Value) : Job σ CommandResult :=
  (runner (t.argv args)).rescue fun
    | .runtime message => Run.raise (.failure .generic message)
    | e => Run.raise e

/-- The kind of the failure of a command: a tool that a signal ended was killed. -/
def failureKind (result : CommandResult) : FailureKind :=
  if result.code < 0 then .killed else Diagnosis.ofText result.output

/-- What a failed command is reported as. -/
def failure (t : CommandLineTool) (args : List String) (result : CommandResult) : Fault :=
  let reason := if result.output.isEmpty then toString result.code else result.output
  .failure (failureKind result)
    (t.tool.text ++ " " ++ " ".intercalate args ++ ": " ++ reason)

/-- Carries out a command that must succeed. -/
def exec (t : CommandLineTool) (runner : Runner σ) (args : List Value) : Job σ Unit := do
  let result ← t.poll runner args
  if result.code = 0 then return
  else Run.raise (t.failure (← Command.texts args) result)

/-- The command that asks whether a device can be reached. -/
def pollArgs : DeviceTool → List Value
  | .adb => [.str "get-state"]
  | .fastboot => [.str "devices"]
  | .heimdall => [.str "detect"]

/-- Whether the answer to the poll means that a device is there. -/
def reachable (tool : DeviceTool) (result : CommandResult) : Bool :=
  result.code = 0 &&
    match tool with
    | .adb => ["device", "recovery", "sideload"].contains (Text.trim result.stdout)
    | .fastboot => !(Text.trim result.stdout).isEmpty
    | .heimdall => true

/-- Whether a device can be reached. A dry run takes it for granted. -/
def hasAccess (t : CommandLineTool) (runner : Runner σ) : Job σ Bool :=
  if t.dryRun then return true
  else return reachable t.tool (← t.poll runner (pollArgs t.tool))

/-- The command that flashes one image. -/
def flashArgs (image : Value) : Fallible (List Value) := do
  let raw ← image.optionalItem "raw"
  let partition ← (← image.item "partition").shown
  let file ← (← image.item "file").shown
  return [.str (if raw.truth then "flash:raw" else "flash"), .str partition, .str file]

/-- The part done when `i` of `total` images are flashed. -/
def flashed (i total : Nat) : Value :=
  .float (Number.quotient i total)

/-- Flashes the images from the `i`th of `total` on, with a report before each. -/
def flashFrom (t : CommandLineTool) (runner : Runner σ) (report : Value → Job σ Unit)
    (total i : Nat) : List Value → Job σ Unit
  | [] => report (.int 1)
  | image :: images => do
    report (flashed i total)
    t.exec runner (← flashArgs image)
    t.flashFrom runner report total (i + 1) images

/-- The words that name the images of one command in download mode. -/
def imageArgs : List Value → Fallible (List Value)
  | [] => .ok []
  | image :: images => do
    let partition ← (← image.item "partition").shown
    let file ← (← image.item "file").shown
    return .str ("--" ++ partition) :: .str file :: (← imageArgs images)

/-- The name of the bootloader's format command: a file system can be given, and with it a
size. -/
def formatCommand (fsType size : Value) : Fallible String :=
  if fsType.truth then do
    let fsType ← fsType.shown
    if size.truth then return "format:" ++ fsType ++ ":" ++ (← size.shown)
    else return "format:" ++ fsType
  else .ok "format"

/-- The commands of a request that does not report how far it is. -/
def commands : DeviceCall → Fallible (List (List Value))
  | .adbFormat partition => .ok [[.str "shell", .str "twrp", .str "wipe", partition]]
  | .sideload file => return [[.str "sideload", .str (← file.shown)]]
  | .adbReboot state =>
    .ok [if state == .str "" || state == .str "system" then [.str "reboot"]
      else [.str "reboot", state]]
  | .reconnect => .ok [[.str "reconnect"]]
  | .flash images => images.mapM flashArgs
  | .erase partition => .ok [[.str "erase", partition]]
  | .fastbootFormat partition fsType size =>
    return [[.str (← formatCommand fsType size), partition]]
  | .boot image partition => do
    let image ← image.shown
    return if partition.truth then [[.str "flash", partition, .str image], [.str "reboot"]]
      else [[.str "boot", .str image]]
  | .update image wipe =>
    return [(if wipe then [.str "-w"] else []) ++ [.str "update", .str (← image.shown)]]
  | .fastbootReboot => .ok [[.str "reboot"]]
  | .rebootBootloader => .ok [[.str "reboot-bootloader"]]
  | .continueBoot => .ok [[.str "continue"]]
  | .setActive slot => return [[.str ("--set-active=" ++ (← slot.shown))]]
  | .oemUnlock code =>
    if code.truth then return [[.str "oem", .str "unlock", .str (← code.shown)]]
    else .ok [[.str "flashing", .str "unlock"]]
  | .heimdallFlash images => (imageArgs images).map fun args => [.str "flash" :: args]

/-- Makes the device do something. -/
def perform (t : CommandLineTool) (runner : Runner σ) (call : DeviceCall)
    (report : Value → Job σ Unit) : Job σ Unit :=
  match call with
  | .flash images => t.flashFrom runner report images.length 0 images
  | .sideload _ => do
    report (.int 0)
    Run.each (t.exec runner) (← commands call)
    report (.int 1)
  | _ => do Run.each (t.exec runner) (← commands call)

end CommandLineTool

end Reflash
