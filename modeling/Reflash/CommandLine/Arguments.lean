import Reflash.Number.Reading
import Reflash.Text.Search

set_option autoImplicit false

/-! # Arguments

Options have long names, which may be shortened as long as only one option is meant. A value
stands behind an equals sign or in the next argument. What an argument is, is decided for all
arguments first (`Arguments.words?`); only then are they taken one after the other. -/

namespace Reflash

/-- What a command line asks for. -/
structure Arguments where
  config : Option String := none
  catalog : String
  device : Option String := none
  system : String := "0"
  /-- Variables and values, in order. -/
  options : List String := []
  cache : String
  log : String
  /-- The pause between steps in seconds. -/
  pace : Float := 0.25
  assumeYes : Bool := false
  dryRun : Bool := false

/-- The options of the command line. -/
inductive Flag where
  | help
  | config
  | catalog
  | device
  | system
  | set
  | cache
  | log
  | pace
  | yes
  | dryRun
deriving Repr, DecidableEq

namespace Flag

/-- The names of the options. -/
def names : List (String × Flag) :=
  [("-h", help), ("--help", help), ("--config", config), ("--catalog", catalog),
    ("--device", device), ("--os", system), ("--set", set), ("--cache", cache), ("--log", log),
    ("--pace", pace), ("--yes", yes), ("--dry-run", dryRun)]

/-- Whether an option has a value. -/
def takesValue : Flag → Bool
  | help | yes | dryRun => false
  | _ => true

/-- What a line about an option says. -/
def help? : Flag → Option String
  | help => some "show this text and exit"
  | config => some "path to a device document"
  | catalog => some "directory of device documents"
  | device => some "codename of a device in the catalog"
  | system => some "index or name of an operating system"
  | set => some "set an option, as var=value"
  | cache => some "directory for downloads"
  | log => some "path to the record"
  | pace => some "pause between steps in seconds"
  | yes => some "accept defaults and continue on every prompt"
  | dryRun => some "record device commands without running them"

end Flag

namespace Arguments

/-! ## What an argument is -/

/-- An argument, once it is known what it is. -/
inductive Word where
  | plain (text : String)
  /-- The mark behind which every argument is plain. -/
  | separator
  /-- An option; the value is the one behind an equals sign, or what follows a short name in one
  argument with it. -/
  | option (flag : Flag) (joined : Bool) (value : Option String)
  | unknown
deriving Repr, DecidableEq

/-- A name and, behind the first equals sign, a value. -/
def splitValue (arg : String) : String × Option String :=
  match Text.splitFirst '=' arg with
  | some (name, value) => (name, some value)
  | none => (arg, none)

/-- The options whose names begin with a text, each with the value that is given along. -/
def shortened (arg : String) : List Word :=
  if arg.startsWith "--" then
    let (name, value) := splitValue arg
    Flag.names.filterMap fun (full, flag) =>
      if full.startsWith name then some (.option flag false value) else none
  else
    Flag.names.filterMap fun (full, flag) =>
      if full.toList = arg.toList.take 2 then
        some (.option flag true (some (String.ofList (arg.toList.drop 2))))
      else if full.startsWith arg then some (.option flag false none)
      else none

/-- Whether an argument is a negative number. -/
def isNegativeNumber (arg : String) : Bool :=
  let digit (c : Char) : Bool := (Text.digitValue? c).isSome
  match arg.toList with
  | '-' :: cs =>
    let whole := cs.takeWhile digit
    match cs.drop whole.length with
    | [] => !whole.isEmpty
    | '.' :: fraction => !fraction.isEmpty && fraction.all digit
    | _ => false
  | _ => false

/-- What one argument is; nothing if more than one option is meant. -/
def word? (arg : String) : Option Word :=
  if !arg.startsWith "-" || arg = "-" then some (.plain arg)
  else
    match Flag.names.lookup arg with
    | some flag => some (.option flag false none)
    | none =>
      let (name, value) := splitValue arg
      match value, Flag.names.lookup name with
      | some _, some flag => some (.option flag false value)
      | _, _ =>
        match shortened arg with
        | [w] => some w
        | _ :: _ :: _ => none
        | [] =>
          if isNegativeNumber arg || arg.toList.contains ' ' then some (.plain arg)
          else some .unknown

/-- What all arguments are; nothing if one of them could mean more than one option. -/
def words? : List String → Option (List Word)
  | [] => some []
  | "--" :: rest => some (.separator :: rest.map .plain)
  | arg :: rest => do
    let w ← word? arg
    let ws ← words? rest
    return w :: ws

/-! ## Taking arguments -/

/-- What becomes of a command line. -/
inductive Reading where
  | run (a : Arguments)
  | help
  | refused

/-- The arguments with the value of an option. -/
def withValue (a : Arguments) (flag : Flag) (value : String) : Option Arguments :=
  match flag with
  | .config => some { a with config := some value }
  | .catalog => some { a with catalog := value }
  | .device => some { a with device := some value }
  | .system => some { a with system := value }
  | .set => some { a with options := a.options ++ [value] }
  | .cache => some { a with cache := value }
  | .log => some { a with log := value }
  | .pace => (Number.real? value.toList).map fun pace => { a with pace }
  | .help | .yes | .dryRun => none

/-- The arguments with an option that has no value. -/
def withFlag (a : Arguments) (flag : Flag) : Arguments :=
  match flag with
  | .yes => { a with assumeYes := true }
  | .dryRun => { a with dryRun := true }
  | _ => a

/-- Takes arguments one after the other; `extra` says whether one was left over. -/
def take (a : Arguments) (extra : Bool) : List Word → Reading
  | [] => if extra then .refused else .run a
  | .plain _ :: rest | .separator :: rest | .unknown :: rest => take a true rest
  | .option flag joined (some value) :: rest =>
    if flag.takesValue then
      match a.withValue flag value with
      | some a => take a extra rest
      | none => .refused
    else if joined && !value.startsWith "-" then .help
    else .refused
  | .option flag _ none :: .plain value :: rest =>
    if flag.takesValue then
      match a.withValue flag value with
      | some a => take a extra rest
      | none => .refused
    else if flag = .help then .help
    else take (a.withFlag flag) true rest
  | .option flag _ none :: rest =>
    if flag.takesValue then .refused
    else if flag = .help then .help
    else take (a.withFlag flag) extra rest

/-- Reads the arguments of a command line; what is not given is as in `defaults`. -/
def read (defaults : Arguments) (args : List String) : Reading :=
  match words? args with
  | some words => take defaults false words
  | none => .refused

/-! ## Help -/

/-- The text that explains the options. -/
def helpText : String :=
  "usage: flash-installer [options]\n" ++
    String.join (Flag.names.map fun (name, flag) =>
      "  " ++ name ++ "  " ++ flag.help?.getD "" ++ "\n")

end Arguments

end Reflash
