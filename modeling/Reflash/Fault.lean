import Reflash.Value.Literal

set_option autoImplicit false

/-! # Failures

What can go wrong, as causes. Device tools and handlers attach a `FailureKind` to what they report,
and recovery decides by the kind alone (`Fault.kind`). The wording of every cause is in one place
(`Fault.text`). A cancellation is the one cause that is not ordinary (`Fault.isOrdinary`): what
guards against any ordinary failure lets it through. -/

namespace Reflash

/-- The kinds of failure that recovery tells apart. -/
inductive FailureKind where
  | unknownAction
  | checksumMismatch
  | noDevice
  | deviceOffline
  | unauthorized
  | networkUnavailable
  | bootloaderLocked
  | unlockDisabled
  | lowBattery
  | killed
  | generic
deriving Repr, DecidableEq, Inhabited

namespace FailureKind

/-- The name of a kind in records. -/
def text : FailureKind → String
  | unknownAction => "unknown_action"
  | checksumMismatch => "checksum_mismatch"
  | noDevice => "no_device"
  | deviceOffline => "device_offline"
  | unauthorized => "unauthorized"
  | networkUnavailable => "network_unavailable"
  | bootloaderLocked => "bootloader_locked"
  | unlockDisabled => "unlock_disabled"
  | lowBattery => "low_battery"
  | killed => "killed"
  | generic => "generic"

/-- All kinds. -/
def all : List FailureKind :=
  [unknownAction, checksumMismatch, noDevice, deviceOffline, unauthorized, networkUnavailable,
    bootloaderLocked, unlockDisabled, lowBattery, killed, generic]

/-- The kind with a given name. -/
def ofText? (name : String) : Option FailureKind :=
  all.find? fun kind => kind.text == name

/-- Whether the failure is a loss of the connection to the device or to the network. -/
def connectivityLost : FailureKind → Bool
  | noDevice | deviceOffline | unauthorized | networkUnavailable => true
  | _ => false

end FailureKind

/-- What the file system answers when it refuses. A name with a NUL in it does not even get there. -/
inductive FileProblem where
  | missing
  | isDirectory
  | notDirectory
  | alreadyThere
  | notEmpty
  | denied
  | nameTooLong
  | embeddedNul
deriving Repr, DecidableEq

namespace FileProblem

/-- The number and the words of a problem. -/
def text : FileProblem → String
  | missing => "[Errno 2] No such file or directory"
  | denied => "[Errno 13] Permission denied"
  | alreadyThere => "[Errno 17] File exists"
  | notDirectory => "[Errno 20] Not a directory"
  | isDirectory => "[Errno 21] Is a directory"
  | nameTooLong => "[Errno 36] File name too long"
  | embeddedNul => "embedded null byte"
  | notEmpty => "[Errno 39] Directory not empty"

end FileProblem

/-- What can be wrong with a text that should be a document. -/
inductive DocumentFormat where
  | yaml
  | json
deriving Repr, DecidableEq

/-- A cause of failure. -/
inductive Fault where
  /-- A failure reported with its kind. -/
  | failure (kind : FailureKind) (message : String)
  /-- An action that no plugin registered. -/
  | unknownAction (id : String)
  /-- A file whose digest is not the expected one. -/
  | checksumMismatch (message : String)
  /-- A deliberate end. -/
  | killed (message : String)
  /-- The failure of one action. -/
  | inAction (id : String) (cause : Fault)
  /-- The user declined to continue. -/
  | aborted (message : String)
  /-- The run was cancelled where it was suspended. -/
  | cancelled (message : String)
  /-- A document that is not well-formed. -/
  | config (message : String)
  /-- A value that has the right type but cannot be used. -/
  | invalid (message : String)
  /-- A text that looks like a whole number but is none. -/
  | notNumber
  /-- A whole number with too many digits to be written. -/
  | unwritable
  /-- Something that is not allowed in the present state. -/
  | runtime (message : String)
  /-- The file system refused; one path, or two for a move. -/
  | file (problem : FileProblem) (paths : List String)
  /-- A missing file, reported in words of its own. -/
  | fileMissing (message : String)
  /-- Any other failure of the system. -/
  | system (message : String)
  /-- A mapping without an entry that was asked for. -/
  | missingKey (key : Value)
  /-- A value of the wrong type. -/
  | mistyped
  /-- A text that its document format does not allow. -/
  | malformed (format : DocumentFormat)
  /-- Bytes that are no text. -/
  | notText
  /-- A number too large for the operation. -/
  | overflow
  /-- A position outside a list. -/
  | outOfRange
  /-- An archive that cannot be read. -/
  | badArchive
deriving Inhabited

namespace Fault

/-- What marks the text of a cause that the program has no words for. -/
def unworded : String := "<type error>"

/-- What stands for the words that the runtime or a parser puts to a cause: the mark, and of which
sort the cause is. -/
def foreignText (sort : String) : String := unworded ++ " " ++ sort

/-- What is said of a whole number that has too many digits to be written. -/
def tooManyDigits : String :=
  "Exceeds the limit (4300 digits) for integer string conversion; " ++
    "use sys.set_int_max_str_digits() to increase the limit"

/-- The text of a cause. -/
def text : Fault → String
  | failure _ message => message
  | unknownAction id => "Unknown action " ++ id
  | checksumMismatch message => message
  | killed message => message
  | inAction id cause => id ++ ": " ++ cause.text
  | aborted message => message
  | cancelled message => message
  | config message => message
  | invalid message => message
  | runtime message => message
  | file problem paths => problem.text ++ ": " ++ " -> ".intercalate (paths.map Text.quoted)
  | fileMissing message => message
  | system message => message
  | missingKey key => key.literal
  | notNumber => foreignText "number"
  | unwritable => tooManyDigits
  | mistyped => foreignText "type"
  | malformed .yaml => foreignText "YAML"
  | malformed .json => foreignText "JSON"
  | notText => foreignText "encoding"
  | overflow => foreignText "overflow"
  | outOfRange => foreignText "index"
  | badArchive => foreignText "archive"

/-- The kind of a cause: the reported one, or generic for whatever carries none. -/
def kind : Fault → FailureKind
  | failure kind _ => kind
  | unknownAction _ => .unknownAction
  | checksumMismatch _ => .checksumMismatch
  | killed _ => .killed
  | _ => .generic

/-- Whether a cause is an ordinary failure, which is everything but a cancellation. -/
def isOrdinary : Fault → Bool
  | cancelled _ => false
  | _ => true

/-- Whether a cause is a value that has the right type but cannot be used. -/
def isUnusable : Fault → Bool
  | invalid _ | notNumber | unwritable | notText | malformed .json => true
  | _ => false

/-- Whether a cause means that a run was ended on purpose: killed, declined, or an action's
failure that nothing recovered. -/
def isTermination : Fault → Bool
  | killed _ | aborted _ | inAction _ _ => true
  | _ => false

end Fault

/-- The cause of failure that a refusal of the file system at some paths is. -/
def FileProblem.fault : FileProblem → List String → Fault
  | embeddedNul, _ => .invalid embeddedNul.text
  | problem, paths => .file problem paths

/-- A computation that may fail. -/
abbrev Fallible (α : Type) := Except Fault α

end Reflash
