import Reflash.Run.Host
import Reflash.Text.Blank

set_option autoImplicit false

/-! # Commands

A command is started with its words, and leaves an exit code and what it printed. Every command is
recorded before it is started, so a record shows what was tried even where the tool is missing. A
dry run records commands without starting them. -/

namespace Reflash

/-- What a finished command left. An exit code below zero is the negated number of the signal that
ended it. -/
structure CommandResult where
  argv : List Value
  code : Int := 0
  stdout : String := ""
  stderr : String := ""
deriving Inhabited

namespace CommandResult

/-- What was printed, either stream trimmed and the empty ones left out. -/
def output (r : CommandResult) : String :=
  "\n".intercalate ([Text.trim r.stdout, Text.trim r.stderr].filter (!·.isEmpty))

end CommandResult

/-- How commands are carried out. -/
abbrev Runner (σ : Type) := List Value → Job σ CommandResult

namespace Command

variable {σ : Type}

/-- The text of a word in a command line. A word that is no text can be shown only if it is
empty. -/
def word (v : Value) : Fallible String :=
  match v with
  | .str s => .ok s
  | v => if v.truth then .error .mistyped else .ok ""

/-- The texts of the words of a command line. -/
def words : List Value → Fallible (List String)
  | [] => .ok []
  | v :: vs =>
    match word v with
    | .error e => .error e
    | .ok s => (words vs).map (s :: ·)

/-- The words of a command that is to be started: all must be texts. -/
def texts : List Value → Fallible (List String)
  | [] => .ok []
  | v :: vs =>
    match v.asText with
    | .error e => .error e
    | .ok s => (texts vs).map (s :: ·)

/-- Adds a line to the record. -/
def log (level : Level) (message : String) : Job σ Unit :=
  Host.log level "lib.command" message

/-- Records what a command printed on one of its streams, if it printed anything. -/
def logStream (name content : String) : Job σ Unit :=
  if content.isEmpty then return else log .debug (name ++ " " ++ Text.trim content)

/-- Records commands and starts none: each counts as a success without output. -/
def dry : Runner σ := fun argv => do
  Run.emit (.commanded (← words argv))
  return { argv }

/-- Records commands and starts them by means of `start`, which finds no program for some. -/
def started (start : List String → Job σ (Option CommandResult)) : Runner σ := fun argv => do
  Run.emit (.commanded (← words argv))
  let argv ← texts argv
  Run.emit (.started (argv.map .str))
  let program :: _ := argv | Run.raise .outOfRange
  match ← start argv with
  | none => Run.raise (.runtime ("Tool not found: " ++ program))
  | some result =>
    logStream "STDOUT" result.stdout
    logStream "STDERR" result.stderr
    return result

/-- Carries out a command that must succeed. -/
def checked (runner : Runner σ) (argv : List Value) : Job σ CommandResult := do
  let result ← runner argv
  if result.code = 0 then return result
  else
    Run.raise (.runtime ("Command failed (" ++ toString result.code ++ "): " ++
      Text.commandLine (← words argv) ++ "\n" ++ result.stderr))

end Command

end Reflash
