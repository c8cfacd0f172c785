import Reflash.Fault
import Reflash.Text.ShellWord

set_option autoImplicit false

/-! # What the outside gets to see

Notices to the shell, questions to the user with their answers, the lines of the record, and the
signals that a run consists of. -/

namespace Reflash

/-! ## Notices -/

/-- The notices that a shell understands. -/
inductive NoticeKind where
  | working
  | status
  | under
  | progress
  | speed
  | done
  | noNetwork
  | deviceUnsupported
deriving Repr, DecidableEq

namespace NoticeKind

/-- The name of a kind of notice. -/
def text : NoticeKind → String
  | working => "working"
  | status => "status"
  | under => "under"
  | progress => "progress"
  | speed => "speed"
  | done => "done"
  | noNetwork => "no_network"
  | deviceUnsupported => "device_unsupported"

/-- All kinds of notice. -/
def all : List NoticeKind :=
  [working, status, under, progress, speed, done, noNetwork, deviceUnsupported]

/-- The kind with a given name. -/
def ofText? (name : String) : Option NoticeKind :=
  all.find? fun kind => kind.text == name

end NoticeKind

/-- Something that the shell shows without answering. -/
structure Notice where
  kind : NoticeKind
  args : List Value := []

namespace Notice

/-- Something goes on that the shell may show a picture for. -/
def working (indicator : String) : Notice := ⟨.working, [.str indicator]⟩

/-- The headline of what goes on, and whether its progress can be measured. -/
def status (text : String) (determinate : Option Bool := none) : Notice :=
  ⟨.status, .str text :: (determinate.map Value.bool).toList⟩

/-- What goes on in detail. -/
def under (text : String) : Notice := ⟨.under, [.str text]⟩

/-- How much of it is done, in percent. -/
def progress (percent : Value) : Notice := ⟨.progress, [percent]⟩

/-- How fast it goes on. -/
def speed (rate : Value) : Notice := ⟨.speed, [rate]⟩

/-- The installation is complete. -/
def done : Notice := ⟨.done, []⟩

/-- The network cannot be reached. -/
def noNetwork : Notice := ⟨.noNetwork, []⟩

/-- The device is not in the catalog. -/
def deviceUnsupported (codename : String) : Notice := ⟨.deviceUnsupported, [.str codename]⟩

/-- The notice that a run which ended early leaves behind. -/
def idle : Notice := working "particles"

end Notice

/-! ## Questions and answers -/

/-- What the user can be asked. -/
inductive Prompt where
  | unlock
  | eula
  | prerequisites
  | configure
  | userAction
  | manualDownload
  | connectionLost
  | oemLock
  | lowPower
  | error
deriving Repr, DecidableEq

namespace Prompt

/-- The name of a prompt. -/
def text : Prompt → String
  | unlock => "unlock"
  | eula => "eula"
  | prerequisites => "prerequisites"
  | configure => "configure"
  | userAction => "user_action"
  | manualDownload => "manual_download"
  | connectionLost => "connection_lost"
  | oemLock => "oem_lock"
  | lowPower => "low_power"
  | error => "error"

/-- All prompts. -/
def all : List Prompt :=
  [unlock, eula, prerequisites, configure, userAction, manualDownload, connectionLost, oemLock,
    lowPower, error]

/-- The prompt with a given name. -/
def ofText? (name : String) : Option Prompt :=
  all.find? fun prompt => prompt.text == name

end Prompt

/-- What the user can choose. -/
inductive Choice where
  | continue
  | retry
  | ignore
  | abort
deriving Repr, DecidableEq, Inhabited

namespace Choice

/-- The name of a choice. -/
def text : Choice → String
  | .continue => "continue"
  | .retry => "retry"
  | .ignore => "ignore"
  | .abort => "abort"

/-- The choice with a given name. -/
def ofText? (name : String) : Option Choice :=
  [.continue, .retry, .ignore, .abort].find? fun choice => choice.text == name

end Choice

/-- A question: what it is about, and the action, the step and the cause that led to it. -/
structure PromptRequest where
  prompt : Prompt
  data : Entries := []
  action : Option String := none
  step : Option Entries := none
  cause : Option String := none

/-- An answer. -/
structure Decision where
  choice : Choice := .continue
  value : Value := .null
deriving Inhabited

/-- Whether an answer lets the run go on. -/
def Decision.resumes (d : Decision) : Bool :=
  d.choice == .continue || d.choice == .retry

/-! ## The record -/

/-- How much a line of the record matters. -/
inductive Level where
  | debug
  | info
  | warning
  | error
  | critical
deriving Repr, DecidableEq

namespace Level

/-- The name of a level. -/
def text : Level → String
  | debug => "DEBUG"
  | info => "INFO"
  | warning => "WARNING"
  | error => "ERROR"
  | critical => "CRITICAL"

/-- All levels. -/
def all : List Level := [debug, info, warning, error, critical]

/-- The level with a given name. -/
def ofText? (name : String) : Option Level :=
  all.find? fun level => level.text == name

/-- The rank of a level: a record kept from a level on has the lines of that rank and above. -/
def rank : Level → Nat
  | debug => 10
  | info => 20
  | warning => 30
  | error => 40
  | critical => 50

end Level

/-- A line of the record: its level, the part of the program that wrote it, and its text. -/
structure LogLine where
  level : Level
  source : String
  message : String
deriving Repr, DecidableEq

/-! ## Calls to a session -/

/-- What can be asked of an installer session. -/
inductive SessionCall where
  | setConfig (config : Value)
  | setDevice (codename : String)
  | selectSystem
  | setOption (var value : Value)
  | install (index : Value)
  | cancel
  | findSystem (name : String)
  | state

namespace SessionCall

/-- The name of a call in records. -/
def text : SessionCall → String
  | setConfig _ => "set_config"
  | setDevice _ => "set_device"
  | selectSystem => "select_os"
  | setOption .. => "set_option"
  | install _ => "install"
  | cancel => "cancel"
  | findSystem _ => "find_os"
  | state => "state"

end SessionCall

/-! ## Signals -/

/-- What handlers, tools and the session do towards the outside. -/
inductive Signal where
  /-- The shell was told something. -/
  | notified (notice : Notice)
  /-- The user was asked something. -/
  | prompted (request : PromptRequest)
  /-- A collaborator was called. -/
  | called (collaborator method : String) (args : List Value)
  /-- The record was told of a command. -/
  | commanded (argv : List String)
  /-- A command was started. -/
  | started (argv : List Value)
  /-- A line was added to the record. -/
  | logged (line : LogLine)
  /-- A call reached the session while the run was waiting; `active` is whether a run was under
  way after it. -/
  | visited (call : SessionCall) (answer : Fallible Value) (active : Bool)

namespace Signal

/-- The line of the record that a signal is, if it is one. -/
def logLine? : Signal → Option LogLine
  | logged line => some line
  | commanded argv => some ⟨.info, "lib.command", "CMD " ++ Text.commandLine argv⟩
  | _ => none

end Signal

end Reflash
