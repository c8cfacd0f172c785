import Reflash.Step.Basic
import Reflash.Text.Digit
import Reflash.Text.Lowercase

set_option autoImplicit false

/-! # Device documents

A device document names the device, the operating systems that can be installed on it with their
steps, and the step that unlocks its bootloader. Steps are checked when the document is read; the
other fields are taken as they are and looked at when they are needed. -/

namespace Reflash

/-- The elements of a field that may be absent. -/
def listField (name : String) (raw : Entries) : Fallible (List Value) :=
  (raw.fieldD name).listOrEmpty

/-- The value of a field if it counts as true, else null. -/
def setField (name : String) (raw : Entries) : Value :=
  (raw.fieldD name).orElse .null

/-- An operating system that can be installed. -/
structure OperatingSystem where
  raw : Entries
  steps : List Step
deriving Inhabited

namespace OperatingSystem

/-- The operating system that a value describes. -/
def ofValue (path : String) : Value → Fallible OperatingSystem
  | .mapping raw =>
    if (Entries.fieldD "name" raw).truth then
      (Step.listOf (path ++ ".steps") (Entries.fieldD "steps" raw)).map fun steps =>
        ⟨raw, steps⟩
    else .error (.config (path ++ ".name is required"))
  | _ => .error (.config (path ++ " must be a mapping"))

/-- The operating systems that the elements of a list describe, from the `i`th on. -/
def ofItems (i : Nat) : List Value → Fallible (List OperatingSystem)
  | [] => .ok []
  | v :: vs =>
    match ofValue ("operating_systems[" ++ toString i ++ "]") v with
    | .error e => .error e
    | .ok os => (ofItems (i + 1) vs).map (os :: ·)

/-- The name. -/
def name (os : OperatingSystem) : String :=
  (os.raw.fieldD "name").text

/-- The name, if it can be written. -/
def shownName (os : OperatingSystem) : Fallible String :=
  (os.raw.fieldD "name").shown

/-- The options that the user can set. -/
def options (os : OperatingSystem) : Fallible (List Value) :=
  listField "options" os.raw

/-- What the user has to make sure of before the installation. -/
def prerequisites (os : OperatingSystem) : Fallible (List Value) :=
  listField "prerequisites" os.raw

/-- The terms that the user has to accept; null if there are none. -/
def eula (os : OperatingSystem) : Value :=
  setField "eula" os.raw

/-- What to say at the end; null for the usual words. -/
def successMessage (os : OperatingSystem) : Value :=
  setField "success_message" os.raw

/-- The default that an option entry gives, if it names both a variable and a value. -/
def optionDefault (option : Value) : Fallible (Option (Value × Value)) := do
  if ← option.includes "var" then
    if ← option.includes "value" then
      let var ← option.item "var"
      let value ← option.item "value"
      if var.isKey then
        return some (var, value)
      throw .mistyped
  return none

/-- The defaults that several option entries give, stored one after the other. -/
def defaultsFrom (acc : Entries) : List Value → Fallible Entries
  | [] => .ok acc
  | option :: options =>
    match optionDefault option with
    | .error e => .error e
    | .ok none => defaultsFrom acc options
    | .ok (some (var, value)) => defaultsFrom (acc.put var value) options

/-- The defaults of the options: for each variable the last entry that has a value. -/
def optionDefaults (os : OperatingSystem) : Fallible Entries := do
  defaultsFrom [] (← os.options)

end OperatingSystem

/-- A device with what can be installed on it. -/
structure Device where
  raw : Entries
  operatingSystems : List OperatingSystem
  unlockStep : Step
deriving Inhabited

namespace Device

/-- The step that unlocks a bootloader when the document does not say how. -/
def defaultUnlock : Value :=
  .ofFields [("actions", .list [.ofFields [("fastboot:oem_unlock", .null)]])]

/-- Whether a required field is there. -/
def require (raw : Entries) (name : String) : Fallible Unit :=
  if (raw.fieldD name).truth then .ok ()
  else .error (.config ("device config: " ++ name ++ " is required"))

/-- The step that unlocks the bootloader, as the document has it. -/
def unlockValue (raw : Entries) : Fallible Value := do
  let handlers := (raw.fieldD "handlers").orElse (.mapping [])
  return (← handlers.optionalItem "bootloader_locked").orElse defaultUnlock

/-- The device that a mapping describes. -/
def ofEntries (raw : Entries) : Fallible Device := do
  require raw "name"
  require raw "codename"
  match (raw.fieldD "operating_systems").orElse (.list []) with
  | .list systems =>
    let unlock ← unlockValue raw
    let operatingSystems ← OperatingSystem.ofItems 0 systems
    let unlockStep ← Step.ofValue "handlers.bootloader_locked" unlock
    return { raw, operatingSystems, unlockStep }
  | _ => throw (.config "device config: operating_systems must be a list")

/-- The device that a value describes. -/
def ofValue : Value → Fallible Device
  | .mapping raw => ofEntries raw
  | _ => .error (.config "device config must contain a mapping/object")

/-- The name for people. -/
def name (d : Device) : String :=
  (d.raw.fieldD "name").text

/-- The name for people, if it can be written. -/
def shownName (d : Device) : Fallible String :=
  (d.raw.fieldD "name").shown

/-- The name that the device is known by in the catalog and in the cache. -/
def codename (d : Device) : String :=
  (d.raw.fieldD "codename").text

/-- The name that the device is known by, if it can be written. -/
def shownCodename (d : Device) : Fallible String :=
  (d.raw.fieldD "codename").shown

/-- The names of the instructions to follow before the bootloader can be unlocked. -/
def unlock (d : Device) : Fallible (List Value) :=
  listField "unlock" d.raw

/-- The instructions that the user can be asked to follow, by name. -/
def userActions (d : Device) : Fallible Entries :=
  ((d.raw.fieldD "user_actions").orElse (.mapping [])).asMapping

/-- The position that an index denotes in a list of `size`: negative ones count from the end. -/
def position? (size : Nat) (index : Int) : Option Nat :=
  let i := if index < 0 then index + size else index
  if 0 ≤ i && i < size then some i.toNat else none

/-- The operating system at an index. -/
def selectSystem (d : Device) (index : Int) : Fallible OperatingSystem :=
  match (position? d.operatingSystems.length index).bind (d.operatingSystems[·]?) with
  | some os => .ok os
  | none => do
    throw (.config ((← d.shownCodename) ++ ": no operating system at index " ++
      (← Value.numeral index) ++ " (have " ++ toString d.operatingSystems.length ++ ")"))

/-- The first operating system of a list, from the `i`th on, whose name is `wanted` in lower
case. -/
def positionNamed (wanted : String) (i : Nat) : List OperatingSystem → Fallible (Option Nat)
  | [] => .ok none
  | os :: rest => do
    if Text.lowercase (← os.shownName) == wanted then return some i
    positionNamed wanted (i + 1) rest

/-- The index that a text denotes: a text of digits is the index itself, any other one the name of
an operating system in any case. -/
def findSystem (d : Device) (text : String) : Fallible Nat :=
  if Text.allDigits text then
    match Text.number? text with
    | some n => .ok n
    | none => .error .notNumber
  else do
    match ← positionNamed (Text.lowercase text) 0 d.operatingSystems with
    | some i => return i
    | none =>
      throw (.invalid ((← d.shownCodename) ++ ": unknown operating system " ++ Text.quoted text))

end Device

end Reflash
