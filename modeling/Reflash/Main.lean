import Reflash.CommandLine.Program

set_option autoImplicit false

/-! # The command

The program is a function of its arguments, the files it can see and the lines typed at the
terminal. The command shows it the files that its arguments and the typed lines name, and carries
out what it answers: what was printed is printed, and files that changed are written. A line is
read when the program has asked for one more than it was given, and the program is then run again
from the start with that line; it answers as before up to the place where the line was missing.

This command starts no other programs and fetches nothing, so only dry runs and files that are in
the cache already get past the steps that need a device or the network. -/

namespace Reflash.CommandLine

/-! ## Files -/

/-- The path from the root that a path denotes. -/
def absolute (here : String) (path : String) : Path :=
  (Path.ofText here).child path

/-- Adds what is at a path of the system, and at most `depth` levels below it. -/
def addTree (fs : FileStore) (p : Path) : Nat → IO FileStore
  | 0 => return fs
  | depth + 1 => do
    let real ← IO.FS.realPath p.text
    if ← real.isDir then
      let mut fs := (fs.makeDirectories p).toOption.getD fs
      for entry in ← real.readDir do
        match ← (addTree fs (p.child entry.fileName) depth).toBaseIO with
        | .ok more => fs := more
        | .error _ => pure ()
      return fs
    else if ← real.pathExists then
      let above := (fs.makeDirectories p.parent).toOption.getD fs
      return above.put p.parts (.file (← IO.FS.readBinFile p.text))
    else return fs

/-- Adds everything at a path that the program may look at. -/
def addFiles (here : String) (fs : FileStore) (path : String) : IO FileStore := do
  match ← (addTree fs (absolute here path) 32).toBaseIO with
  | .ok more => return more
  | .error _ => return fs

/-- The path of a location. -/
def pathOf (loc : Location) : String := (Path.mk "/" loc).text

/-- Makes the files of the system what the program left, where it changed them. -/
def writeBack (before after : FileStore) : IO Unit := do
  for (loc, node) in after.nodes do
    match node, before.node? loc with
    | .directory, none => IO.FS.createDirAll (pathOf loc)
    | .file content, some (.file old) =>
      if content != old then IO.FS.writeBinFile (pathOf loc) content
    | .file content, _ =>
      IO.FS.createDirAll (pathOf loc.dropLast)
      IO.FS.writeBinFile (pathOf loc) content
    | _, _ => pure ()
  for (loc, node) in before.nodes do
    match node, after.node? loc with
    | .file _, none => IO.FS.removeFile (pathOf loc)
    | _, _ => pure ()

/-! ## Running the program -/

/-- The rounds that the loops of a run may take. -/
def rounds : Nat := 1000000

/-- What the program can do only in part here. -/
def means : Program.Means where
  start _ := return none
  get url := Run.raise (.system ("unreachable: " ++ url.text))

/-- What holds where no argument says otherwise. -/
def defaults (home : String) : Arguments :=
  let cache := home ++ "/.cache/flash-installer"
  { catalog := "devices", cache, log := cache ++ "/flash-installer.log" }

/-- One run of the program with the lines that were read so far. -/
def attempt (defaults : Arguments) (args : List String) (files : FileStore)
    (lines : List (Option String)) : Trail Signal (Hosted Machine) Exit :=
  Program.run means defaults args rounds
    { session := {}, outside := { files, terminal := { input := lines } } }

/-- What happened at a terminal before the answer to the question behind `answered` others was
needed, and whether that question was put. -/
def untilQuestion : Nat → List TerminalEvent → List TerminalEvent × Bool
  | _, [] => ([], false)
  | answered, .printed line :: rest =>
    let (before, reached) := untilQuestion answered rest
    (.printed line :: before, reached)
  | 0, .asked question :: _ => ([.asked question], true)
  | answered + 1, .asked question :: rest =>
    let (before, reached) := untilQuestion answered rest
    (.asked question :: before, reached)

/-- Runs the program, reading lines as it asks for them; `seen` counts what was shown already. -/
partial def converse (defaults : Arguments) (args : List String) (files : FileStore)
    (lines : List (Option String)) (seen : Nat) :
    IO (FileStore × Trail Signal (Hosted Machine) Exit) := do
  let t := attempt defaults args files lines
  let (events, reached) := untilQuestion lines.length t.world.outside.happened
  IO.print (String.join ((events.drop seen).map TerminalEvent.text))
  (← IO.getStdout).flush
  if reached then
    let line ← (← IO.getStdin).getLine
    let next : Option String := if line.isEmpty then none else some line
    let files ← addFiles (pathOf files.current) files (Text.trim line)
    converse defaults args files (lines ++ [next]) events.length
  else return (files, t)

/-! ## The clock -/

/-- The present time, which is that of a file made now. -/
def stamp : IO String := do
  let (_, path) ← IO.FS.createTempFile
  let seconds := (← path.metadata).modified.sec
  IO.FS.removeFile path
  let now := { DateTime.ofSeconds seconds.toNat with offset := none }
  return now.text "T" ++ "+0000"

/-- Runs the program for arguments that can be read, and carries out what it answers. -/
def carryOut (defaults : Arguments) (args : List String) (a : Arguments) : IO UInt32 := do
  let here := (← IO.currentDir).toString
  let mut files : FileStore := { current := (Path.ofText here).parts }
  files := (files.makeDirectories (.ofText here)).toOption.getD files
  for path in a.config.toList ++ [a.catalog, a.cache, a.log, Record.fallbackName] do
    files ← addFiles here files path
  let (before, t) ← converse defaults args files [] 0
  let (after, lines) := Program.recorded (← stamp) t.events t.world.outside
  writeBack before after
  for line in lines do IO.eprintln line
  match t.ending with
  | .returned e =>
    if let some complaint := e.complaint then IO.eprintln ("error: " ++ complaint)
    return e.code.toUInt32
  | .raised e =>
    IO.eprintln ("error: " ++ e.text)
    return 1
  | .unfinished =>
    IO.eprintln "error: the run was not finished"
    return 1

end Reflash.CommandLine

open Reflash Reflash.CommandLine

/-- Reads the arguments and runs the program. -/
def main (args : List String) : IO UInt32 := do
  let defaults := defaults ((← IO.getEnv "HOME").getD "/")
  match Arguments.read defaults args with
  | .help =>
    IO.print Arguments.helpText
    return 0
  | .refused =>
    IO.eprint Arguments.helpText
    return 2
  | .run a => carryOut defaults args a
