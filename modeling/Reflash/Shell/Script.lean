import Reflash.Shell.Printing
import Reflash.Shell.Token
import Reflash.Text.Lines
import Reflash.Tool.Command

set_option autoImplicit false

/-! # Simple scripts

What a shell leaves that is given a script of simple commands: printing, variables, redirections
between the two streams, `&&` and `||`, leaving with a code, and ending itself by a signal. Such
scripts need no process, so commands can be carried out and reasoned about without one. -/

namespace Reflash.Shell

/-- How a shell stands between two commands: its variables, the code of the last command, and what
the two streams got so far. -/
structure State where
  program : String
  bindings : List (String × String) := []
  status : Int := 0
  out : List UInt8 := []
  err : List UInt8 := []

/-- Where the streams of a command go; nothing for what is dropped. -/
structure Streams where
  out : Option Stream := some .out
  err : Option Stream := some .err

/-- A simple command with its redirections, in order. -/
structure Simple where
  words : List Word := []
  redirections : List Token := []

/-- A command, and what stood before it. -/
abbrev Step := Token × Simple

/-! ## Commands of a script -/

/-- The commands that tokens make, after the tokens of the present one. -/
def stepsFrom (before : Token) (present : Simple) : List Token → List Step
  | [] => [(before, finished present)]
  | .word w :: rest => stepsFrom before { present with words := w :: present.words } rest
  | .join s t :: rest =>
    stepsFrom before { present with redirections := .join s t :: present.redirections } rest
  | .discard s :: rest =>
    stepsFrom before { present with redirections := .discard s :: present.redirections } rest
  | mark :: rest => (before, finished present) :: stepsFrom mark {} rest
where
  /-- The command with its parts in order. -/
  finished (c : Simple) : Simple :=
    { words := c.words.reverse, redirections := c.redirections.reverse }

/-- The commands of a script. -/
def stepsOf (script : String) : Option (List Step) :=
  let cs := script.toList
  (tokens (cs.length + 1) cs).map (stepsFrom .separator {})

/-! ## Words and streams -/

namespace State

/-- The number that the shell has among the processes it sees. -/
def own : String := "1"

/-- The value of a variable; one that is not set is empty. -/
def value (s : State) (name : String) : String :=
  if name = "$" then own
  else if name = "?" then toString s.status
  else if name = "0" then s.program
  else (s.bindings.lookup name).getD ""

/-- Sets a variable. -/
def set (s : State) (name value : String) : State :=
  { s with bindings := (name, value) :: s.bindings }

/-- The runs of characters between blanks, and whether blanks stand at the two ends. -/
def fields (cs : List Char) : List (List Char) :=
  cs.foldr (fun c parts =>
    if " \t\n".toList.contains c then [] :: parts
    else
      match parts with
      | part :: parts => (c :: part) :: parts
      | [] => [[c]]) [[]]

/-- The arguments that the rest of a word stands for, after the characters of the present one.
Variables outside of quotes are cut at blanks. -/
def expandFrom (s : State) (present : Option (List Char)) : Word → List (List Char)
  | [] => present.toList
  | .text cs :: rest => expandFrom s (some (present.getD [] ++ cs)) rest
  | .variable name true :: rest =>
    expandFrom s (some (present.getD [] ++ (s.value name).toList)) rest
  | .variable name false :: rest =>
    match fields (s.value name).toList with
    | [] | [[]] => expandFrom s present rest
    | [only] => expandFrom s (some (present.getD [] ++ only)) rest
    | first :: others =>
      let ended := present.getD [] ++ first
      let between := others.dropLast.filter (!·.isEmpty)
      let last := others.getLast?.getD []
      (if ended.isEmpty then [] else [ended]) ++ between ++
        expandFrom s (if last.isEmpty then none else some last) rest

/-- The arguments that words stand for. -/
def expand (s : State) (words : List Word) : List (List Char) :=
  words.flatMap (s.expandFrom none)

/-- Adds bytes to the place where a stream goes. -/
def write (s : State) (target : Option Stream) (bytes : List UInt8) : State :=
  match target with
  | some .out => { s with out := s.out ++ bytes }
  | some .err => { s with err := s.err ++ bytes }
  | none => s

end State

namespace Streams

/-- Where a stream goes. -/
def get (t : Streams) : Stream → Option Stream
  | .out => t.out
  | .err => t.err

/-- Sends a stream elsewhere. -/
def set (t : Streams) (source : Stream) (target : Option Stream) : Streams :=
  match source with
  | .out => { t with out := target }
  | .err => { t with err := target }

/-- The streams after a redirection. -/
def redirect (t : Streams) : Token → Streams
  | .join source target => t.set source (t.get target)
  | .discard source => t.set source none
  | _ => t

end Streams

/-! ## Carrying out commands -/

/-- The signals that a shell can send itself. -/
def signals : List (String × Int) :=
  [("HUP", 1), ("INT", 2), ("QUIT", 3), ("ABRT", 6), ("KILL", 9), ("USR1", 10), ("SEGV", 11),
    ("USR2", 12), ("PIPE", 13), ("ALRM", 14), ("TERM", 15)]

/-- The signal with a name or a number. -/
def signalOf? (text : String) : Option Int :=
  match text.toNat? with
  | some n => some n
  | none => signals.lookup text

/-- The signal that arguments ask to be sent to the shell itself. -/
def killSignal? : List String → Option Int
  | [p] => if p = State.own then some 15 else none
  | ["-s", name, p] => if p = State.own then signalOf? name else none
  | [option, p] =>
    if p = State.own && option.startsWith "-" then signalOf? (option.drop 1).toString else none
  | _ => none

/-- The state after a command, and the code with which the shell ends if it does. -/
abbrev After := State × Option Int

/-- Carries out one command that is not an assignment. -/
def call (s : State) (t : Streams) (name : String) (args : List (List Char)) : After :=
  let texts := args.map String.ofList
  let status (n : Int) : After := ({ s with status := n }, none)
  let complain (n : Int) (message : String) : State :=
    { s.write t.err (s.program ++ ": 1: " ++ message ++ "\n").toUTF8.toList with status := n }
  match name with
  | ":" | "true" => status 0
  | "false" => status 1
  | "echo" => ({ s.write t.out (echoed args) with status := 0 }, none)
  | "printf" =>
    match args with
    | format :: rest =>
      ({ s.write t.out (printed format (rest.length + 1) rest) with status := 0 }, none)
    | [] => (complain 2 "printf: usage: printf format [arg ...]", none)
  | "exit" =>
    match texts with
    | [] => (s, some s.status)
    | code :: _ =>
      match code.toNat? with
      | some n => (s, some (n % 256))
      | none => (complain 2 ("exit: Illegal number: " ++ code), some 2)
  | "kill" =>
    match killSignal? texts with
    | some n => (s, some (-n))
    | none => status 1
  | name => (complain 127 (name ++ ": not found"), none)

/-- The variable and the value that a word sets, if it does. -/
def assignment? (word : List Char) : Option (String × String) :=
  let name := word.takeWhile isNameChar
  match name, word.drop name.length with
  | c :: _, '=' :: value =>
    if c.isDigit then none else some (String.ofList name, String.ofList value)
  | _, _ => none

/-- Carries out one command. -/
def carryOut (s : State) (c : Simple) : After :=
  let t := c.redirections.foldl Streams.redirect {}
  match s.expand c.words with
  | [] => (s, none)
  | [only] =>
    match assignment? only with
    | some (name, value) => ({ s.set name value with status := 0 }, none)
    | none => call s t (String.ofList only) []
  | name :: args => call s t (String.ofList name) args

/-- Whether a command is carried out after what stands before it. -/
def isDue (status : Int) : Token → Bool
  | .and => status == 0
  | .or => status != 0
  | _ => true

/-- The state at the end of a script, and its code. -/
def runSteps (s : State) : List Step → State × Int
  | [] => (s, s.status)
  | (before, c) :: rest =>
    if isDue s.status before then
      match carryOut s c with
      | (s, some code) => (s, code)
      | (s, none) => runSteps s rest
    else runSteps s rest

/-! ## The shell as a program -/

/-- The path of the shell. -/
def path : String := "/bin/sh"

/-- The variables of the arguments behind a script: the first one names the shell. -/
def positional (args : List String) : List (String × String) :=
  ("#", toString (args.length - 1)) :: (args.zipIdx.drop 1).map fun (a, i) => (toString i, a)

/-- How a shell ends that is given a script. -/
def runScript (environment : List (String × String)) (script : String) (args : List String) :
    State × Int :=
  let start : State :=
    { program := args.headD path, bindings := positional args ++ environment.reverse }
  match stepsOf script with
  | some steps => runSteps start steps
  | none =>
    let complaint := start.program ++ ": 1: Syntax error: Unterminated quoted string\n"
    (start.write (some .err) complaint.toUTF8.toList, 2)

/-- Starts a command in a world where the shell is the only program. -/
def start {σ : Type} (environment : List (String × String)) (argv : List String) :
    Job σ (Option CommandResult) := do
  let finished (end_ : State × Int) : Job σ (Option CommandResult) := do
    let some stdout := Text.ofBytes? ⟨end_.1.out.toArray⟩ | Run.raise .notText
    let some stderr := Text.ofBytes? ⟨end_.1.err.toArray⟩ | Run.raise .notText
    return some { argv := argv.map .str, code := end_.2, stdout, stderr }
  match argv with
  | program :: "-c" :: script :: args =>
    if program = path then finished (runScript environment script args) else return none
  | [program] => if program = path then finished ({ program }, 0) else return none
  | _ => return none

end Reflash.Shell
