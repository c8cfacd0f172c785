import Reflash.File.Store
import Reflash.Run.Signal

set_option autoImplicit false

/-! # The record of a session

Every step, skip and recovery leaves a line in a file, so that a failed installation can be
explained afterwards. Lines that matter more than the usual ones are shown at once as well. If the
file cannot be opened, one in the current directory takes its place; once a file has been chosen
it stays the one (`Record.setUp_chosen`). -/

namespace Reflash

/-- Who writes a line, and what. -/
structure RecordEntry where
  level : Level
  author : String
  message : String
deriving Repr, DecidableEq

/-- The entry of a line that the program writes. -/
def LogLine.entry (l : LogLine) : RecordEntry :=
  ⟨l.level, "flash_installer." ++ l.source, l.message⟩

namespace RecordEntry

/-- The name of the author of lines that have none. -/
def anonymous : String := "root"

/-- An entry as a line, without its time. -/
def text (e : RecordEntry) : String :=
  e.level.text ++ " " ++ (if e.author.isEmpty then anonymous else e.author) ++ ": " ++ e.message

end RecordEntry

/-- Where the record goes: from which rank on, into which file once one was chosen, and whether
the lines that matter more are shown. -/
structure Record where
  threshold : Nat := Level.warning.rank
  chosen : Option String := none
  shows : Bool := false
deriving Repr, Inhabited

namespace Record

/-- The name of the file that takes the place of one that cannot be opened. -/
def fallbackName : String := "flash-installer.log"

/-- Makes sure that a file can be written to, and keeps what it holds. -/
def openFile (fs : FileStore) (path : String) : Fallible FileStore := do
  let p := Path.ofText path
  let fs ← fs.ensureDirectory p.parent
  atPath p (fs.append p .empty)

/-- Whether the system refused an operation. -/
def isRefusal : Fault → Bool
  | .file .. | .fileMissing _ | .system _ => true
  | _ => false

/-- The file for a record that was asked to go to `path`, and the files with it opened. -/
def choose (fs : FileStore) (path : String) : Fallible (String × FileStore) :=
  match openFile fs path with
  | .ok fs => .ok (path, fs)
  | .error e =>
    if isRefusal e then do
      let instead := (Path.child ⟨"/", fs.current⟩ fallbackName).text
      return (instead, ← openFile fs instead)
    else .error e

/-- The line that says where the record goes. -/
def opening (asked chosen : String) : LogLine :=
  ⟨.info, "logging_utils",
    "Logging initialized (requested=" ++ asked ++ ", actual=" ++ chosen ++ ")"⟩

/-- What setting a record up adds to it. -/
def announcement (r : Record) (asked chosen : String) : List LogLine :=
  if r.chosen.isSome then [] else [opening asked chosen]

/-- Sets the record up: the chosen file, and the files with it opened. Only the first time chooses
a file; later ones change the threshold. -/
def setUp (r : Record) (fs : FileStore) (path : String) (shows : Bool) :
    Fallible (Record × String × FileStore) :=
  match r.chosen with
  | some chosen => .ok (r, chosen, fs)
  | none => do
    let (chosen, fs) ← choose fs path
    return ({ r with chosen := some chosen, shows }, chosen, fs)

/-- The files after a line was added, and what is shown of it. The stamp stands before every
line. Before a file is chosen only what matters more is shown, and nothing else is kept. -/
def add (r : Record) (fs : FileStore) (stamp : String) (e : RecordEntry) :
    FileStore × List String :=
  if e.level.rank < r.threshold then (fs, [])
  else
    let matters := Level.warning.rank ≤ e.level.rank
    match r.chosen with
    | none => (fs, if matters then [e.message] else [])
    | some path =>
      let line := stamp ++ " " ++ e.text
      let fs := ((fs.append (.ofText path) (line ++ "\n").toUTF8).toOption).getD fs
      (fs, if r.shows && matters then [line] else [])

/-- The files after several lines were added, and what is shown of them. -/
def addAll (r : Record) (fs : FileStore) (stamp : String) :
    List RecordEntry → FileStore × List String
  | [] => (fs, [])
  | e :: es =>
    let (fs, first) := r.add fs stamp e
    let (fs, others) := r.addAll fs stamp es
    (fs, first ++ others)

end Record

end Reflash
