import Reflash.Run.Table

set_option autoImplicit false

/-! # Actions that guide the workflow

The end of an installation, groups of steps, and instructions that the user has to follow. -/

namespace Reflash.Builtin

variable {σ : Type}

/-- What is said at the end if the operating system brings no words of its own. -/
def defaultSuccess : String := "All done! Enjoy exploring your new OS!"

/-- Says that the installation is complete. -/
def finish : Handler σ := fun _ ctx => do
  ctx.host.tell .done
  ctx.host.tell (.status ((← ctx.system.shownName) ++ " successfully installed!") (some false))
  ctx.host.tell ⟨.under, [ctx.system.successMessage.orElse (.str defaultSuccess)]⟩
  return .null

/-- Returns the listed steps, to be run in place of the action. -/
def group : Handler σ := fun payload _ => do
  if payload.truth then return .list (← payload.items)
  return .null

/-- The action that waits for the device after the user has followed an instruction: which tool the
device answers to then. -/
def waitAfter : List (String × String) :=
  [("recovery", "adb:wait"), ("system", "adb:wait"), ("bootloader", "fastboot:wait"),
    ("download", "heimdall:wait")]

/-- The wait after an instruction, if there is one. -/
def waitFor? : Value → Option String
  | .str name => waitAfter.lookup name
  | _ => none

/-- Asks the user to follow an instruction, and waits for the device after it. -/
def userAction : Handler σ := fun payload ctx => do
  let name ← payload.optionalItem "action"
  let known ← ctx.device.userActions
  if !name.isKey then Run.raise .mistyped
  match known.get? name with
  | none => Run.raise (.failure .generic ("Unknown user_action: " ++ (← name.shown)))
  | some instruction =>
    let decision ← ctx.host.ask .userAction instruction (some "core:user_action")
    if !decision.resumes then
      Run.raise (.aborted ("user action " ++ (← name.shown) ++ " declined"))
    match waitFor? name with
    | none => return .null
    | some wait => return .list [.ofFields [("actions", .list [.ofFields [(wait, .null)]])]]

/-- The verbs of the workflow. -/
def guideVerbs : Verbs σ :=
  [("end", some finish), ("group", some group), ("user_action", some userAction)]

end Reflash.Builtin
