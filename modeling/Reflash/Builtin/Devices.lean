import Reflash.Run.Table

set_option autoImplicit false

/-! # Actions on the device

The verbs of the three device tools and of the system image. Each tells the shell what it is about
to do, after it has read the fields that it needs for the announcement. -/

namespace Reflash.Builtin

variable {σ : Type}

/-- One look for the device; a miss puts the question before the user. An inconclusive check lets
the run continue. -/
def waitRound (ctx : Context σ) (tool : DeviceTool) : Job σ (Unit ⊕ Value) := do
  Run.emit (.called tool.text "has_access" [])
  match ← (ctx.host.tools.hasAccess tool).attempt with
  | .ok true => return .inr .null
  | .ok false =>
    let decision ← ctx.host.ask .connectionLost .null (some (tool.text ++ ":wait")) none
      (some (tool.label ++ " found no device"))
    if decision.resumes then return .inl ()
    else Run.raise (.aborted "connection lost")
  | .error e =>
    if !e.isOrdinary || e.kind = .killed then Run.raise e
    else
      Host.log .warning "plugins.base" (tool.label ++ " access check failed: " ++ e.text)
      return .inr .null

/-- Waits until the device can be reached. -/
def wait (tool : DeviceTool) : Handler σ := fun _ ctx => do
  ctx.host.announce "Waiting for device" (tool.label ++ " is scanning for devices")
  Run.repeatFrom (fun _ => waitRound ctx tool) ()

/-- An image of a payload with the place where its file is kept. -/
def imageEntry (cache : Cache) (image : Value) : Fallible Value := do
  match image with
  | .mapping es =>
    let group ← image.item "group"
    let file ← image.item "file"
    let place := cache.path (← group.asText) (← file.asText)
    return .mapping (Entries.put (.str "file") (.str place.text) es)
  | _ => throw .mistyped

/-- The images of a payload with their places, in order. -/
def imageEntries (cache : Cache) : List Value → Fallible (List Value)
  | [] => .ok []
  | image :: images =>
    match imageEntry cache image with
    | .error e => .error e
    | .ok entry => (imageEntries cache images).map (entry :: ·)

/-! ## adb -/

/-- Formats a partition from the recovery system. -/
def adbFormat : Handler σ := fun payload ctx => do
  let partition ← payload.item "partition"
  ctx.host.announce "Preparing system for installation" ("Formatting " ++ (← partition.shown))
  ctx.host.perform (.adbFormat partition)
  return .null

/-- Installs a package from the recovery system. -/
def sideload : Handler σ := fun payload ctx => do
  let group ← payload.item "group"
  ctx.host.announce ("Sideloading " ++ (← group.shown))
    "Your new operating system is being installed..."
  ctx.host.perform (.sideload (← ctx.cachedFile payload))
  ctx.host.tell (.progress (.int 0))
  return .null

/-- Reboots to a state, the running system if none is named. -/
def adbReboot : Handler σ := fun payload ctx => do
  let state := (← (payload.orElse (.mapping [])).optionalItem "to_state").orElse (.str "system")
  ctx.host.announce "Rebooting" ("Rebooting to " ++ (← state.shown)) false
  ctx.host.perform (.adbReboot state)
  return .null

/-- Gets the connection back. -/
def adbReconnect : Handler σ := fun _ ctx => do
  ctx.host.announce "Reconnecting" "Connection to device was lost" false
  ctx.host.perform .reconnect
  return .null

/-- The verbs of the debug bridge. -/
def adbVerbs : Verbs σ :=
  [("wait", some (wait .adb)), ("format", some adbFormat), ("sideload", some sideload),
    ("reboot", some adbReboot), ("reconnect", some adbReconnect)]

/-! ## fastboot -/

/-- Flashes images, in order. -/
def flash : Handler σ := fun payload ctx => do
  ctx.host.announce "Flashing firmware" "Flashing firmware partitions using fastboot"
  ctx.host.perform (.flash (← imageEntries ctx.cache (← payload.listOrEmpty)))
  ctx.host.tell (.progress (.int 0))
  return .null

/-- Erases a partition. -/
def erase : Handler σ := fun payload ctx => do
  let partition ← payload.item "partition"
  ctx.host.announce "Cleaning up" ("Erasing " ++ (← partition.shown) ++ " partition")
  ctx.host.perform (.erase partition)
  return .null

/-- Formats a partition. -/
def fastbootFormat : Handler σ := fun payload ctx => do
  let partition ← payload.item "partition"
  ctx.host.announce "Cleaning up" ("Formatting " ++ (← partition.shown) ++ " partition")
  let fsType := (← payload.optionalItem "type").orElse (← payload.optionalItem "partitionType")
  ctx.host.perform (.fastbootFormat partition fsType (← payload.optionalItem "size"))
  return .null

/-- Boots an image. -/
def boot : Handler σ := fun payload ctx => do
  ctx.host.announce "Rebooting" "Your device is being rebooted..." false
  let image ← ctx.cachedFile payload
  ctx.host.perform (.boot image (← payload.optionalItem "partition"))
  return .null

/-- Applies an update package; the setting decides whether user data is wiped. -/
def update : Handler σ := fun payload ctx => do
  ctx.host.announce "Updating system" "Applying fastboot update zip. This may take a while..."
  let image ← ctx.cachedFile payload
  let wipe := ((ctx.settings.get? (.str "wipe")).getD (.bool false)).truth
  ctx.host.perform (.update image wipe)
  return .null

/-- A verb that reads nothing of its payload. -/
def plain (status under : String) (call : DeviceCall) : Handler σ := fun _ ctx => do
  ctx.host.announce status under
  ctx.host.perform call
  return .null

/-- Makes a slot the active one. -/
def setActive : Handler σ := fun payload ctx => do
  let slot ← payload.item "slot"
  ctx.host.announce "Setting up slots" ("Setting slot " ++ (← slot.shown) ++ " active")
  ctx.host.perform (.setActive slot)
  return .null

/-- Unlocks the bootloader, with the code that the payload is or has. -/
def oemUnlock : Handler σ := fun payload ctx => do
  ctx.host.announce "Unlocking" "Unlocking the bootloader"
  let code :=
    match payload with
    | .mapping es => Entries.fieldD "code" es
    | v => v
  ctx.host.perform (.oemUnlock code)
  return .null

/-- The verbs of the bootloader tool. -/
def fastbootVerbs : Verbs σ :=
  [("wait", some (wait .fastboot)), ("flash", some flash), ("erase", some erase),
    ("format", some fastbootFormat), ("boot", some boot), ("update", some update),
    ("reboot", some (plain "Rebooting" "Rebooting system" .fastbootReboot)),
    ("reboot_bootloader",
      some (plain "Rebooting" "Rebooting to bootloader" .rebootBootloader)),
    ("continue", some (plain "Continuing boot" "Resuming boot" .continueBoot)),
    ("set_active", some setActive), ("oem_unlock", some oemUnlock)]

/-! ## heimdall -/

/-- Flashes images of a device in download mode. -/
def heimdallFlash : Handler σ := fun payload ctx => do
  ctx.host.announce "Flashing firmware" "Flashing firmware partitions using heimdall"
  ctx.host.perform (.heimdallFlash (← imageEntries ctx.cache (← payload.listOrEmpty)))
  return .null

/-- The verbs of the download-mode tool. -/
def heimdallVerbs : Verbs σ :=
  [("wait", some (wait .heimdall)), ("flash", some heimdallFlash)]

/-! ## System image -/

/-- The options that a system image is requested with: the settings, but for the device, which is
stored first and gives way to a setting of that name. -/
def imageOptions (ctx : Context σ) : Fallible Entries :=
  return Entries.putAll [(.str "device", .str (← ctx.device.shownCodename))] ctx.settings.data

/-- Downloads and installs a system image. -/
def installImage : Handler σ := fun _ ctx => do
  match ctx.host.tools.systemImage with
  | none => Run.raise (.failure .generic "no system-image client configured")
  | some install =>
    ctx.host.tell (.progress (.int 0))
    ctx.host.tell .idle
    ctx.host.tell (.status ("Downloading " ++ (← ctx.system.shownName)) (some true))
    ctx.host.tell (.under "Checking local files")
    let options ← imageOptions ctx
    Run.emit (.called "system_image" "install" [.mapping options])
    install options ctx.host.reportProgress
    ctx.host.tell (.progress (.int 0))
    return .null

/-- The verb of the system image. -/
def imageVerbs : Verbs σ := [("install", some installImage)]

end Reflash.Builtin
