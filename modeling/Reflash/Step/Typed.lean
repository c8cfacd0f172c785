import Reflash.Value.Access

set_option autoImplicit false

/-! # Steps by type

Older documents describe a step by a type tag and fields of its own. Such a step is read as
one with a single action, whose payload holds the fields that the action reads. A type that the
table does not have becomes an action of its own name without a payload: it fails like any unknown
action, unless an action of that name is registered. A type without a text cannot be looked up. -/

namespace Reflash

/-- How the payload of an action is made of the fields of a typed step. -/
inductive TypedPayload where
  /-- The named fields, those that are there. -/
  | fields (names : List String)
  /-- The list of images to flash. -/
  | images
  /-- Nothing. -/
  | nothing
deriving Repr, DecidableEq

namespace TypedPayload

/-- The payload made of the fields of a step. -/
def build (step : Entries) : TypedPayload → Value
  | fields names =>
    .mapping (names.filterMap fun name => (step.field? name).map fun v => (.str name, v))
  | images => (step.fieldD "flash").orElse (.list [])
  | nothing => .null

end TypedPayload

namespace Step

/-- The action and the payload for each type of a typed step. -/
def typedActions : List (String × String × TypedPayload) :=
  [("download", "core:download", .fields ["group", "files"]),
   ("manual_download", "core:manual_download", .fields ["group", "file"]),
   ("unpack", "core:unpack", .fields ["group", "files"]),
   ("user_action", "core:user_action", .fields ["action"]),
   ("systemimage", "systemimage:install", .nothing),
   ("adb:format", "adb:format", .fields ["partition"]),
   ("adb:sideload", "adb:sideload", .fields ["group", "file"]),
   ("adb:reboot", "adb:reboot", .fields ["to_state"]),
   ("fastboot:flash", "fastboot:flash", .images),
   ("fastboot:erase", "fastboot:erase", .fields ["partition"]),
   ("fastboot:format", "fastboot:format", .fields ["partition", "partitionType", "size"]),
   ("fastboot:boot", "fastboot:boot", .fields ["group", "file", "partition"]),
   ("fastboot:update", "fastboot:update", .fields ["group", "file"]),
   ("fastboot:reboot_bootloader", "fastboot:reboot_bootloader", .nothing),
   ("fastboot:reboot", "fastboot:reboot", .nothing),
   ("fastboot:continue", "fastboot:continue", .nothing),
   ("fastboot:set_active", "fastboot:set_active", .fields ["slot"]),
   ("heimdall:flash", "heimdall:flash", .images)]

/-- The name of the action of a type that the table does not have. -/
def unknownTypeAction (type : String) : String :=
  if Text.contains type ":" then type else "legacy:" ++ type

/-- The action that a typed step stands for, as a mapping with one key. -/
def typedAction (type : String) (step : Entries) : Value × Value :=
  match typedActions.lookup type with
  | some (action, payload) => (.str action, payload.build step)
  | none => (.str (unknownTypeAction type), .null)

/-- The fields of a typed step that every step may have. -/
def sharedFields : List String := ["condition", "optional", "resumable", "fallback"]

/-- The step with actions that a typed step stands for. -/
def actionForm (type : String) (step : Entries) : Entries :=
  let action := typedAction type step
  let shared : Entries := sharedFields.filterMap fun name =>
    (step.field? name).map fun v => (.str name, v)
  let out := shared.put "actions" (.list [.mapping [action]])
  let helper := step.fieldD "fallback_user_action"
  if helper.truth && !(step.has "fallback") then
    out.put "fallback" (.list [.ofFields [("core:user_action", .ofFields [("action", helper)])]])
  else out

/-- Whether a mapping describes a step by its type. -/
def isTyped (step : Entries) : Bool :=
  step.has "type" && !(step.has "actions")

/-- Whether any value would be taken for a typed step. -/
def looksTyped (v : Value) : Fallible Bool := do
  if ← v.includes "type" then
    return !(← v.includes "actions")
  return false

/-- The step with actions that any value stands for, if it has a type. -/
def actionForm? (v : Value) : Fallible Entries := do
  let type ← (← v.item "type").shown
  match v with
  | .mapping step => return actionForm type step
  | _ => throw .mistyped

end Step

end Reflash
