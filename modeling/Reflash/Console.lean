import Reflash.Number.Binary64
import Reflash.Run.Basic
import Reflash.Run.Signal
import Reflash.Text.Digit
import Reflash.Text.Lowercase
import Reflash.Value.Access

set_option autoImplicit false

/-! # The text shell

Notices are printed, one line each, and progress only when it enters another tenth. Questions are
put with what they are about, and answered by a line of input; where defaults are to be accepted
nothing is read. -/

namespace Reflash

/-- What happens at a terminal. -/
inductive TerminalEvent where
  | printed (line : String)
  | asked (question : String)
deriving Repr, DecidableEq

namespace TerminalEvent

/-- What an event leaves on the screen. -/
def text : TerminalEvent → String
  | printed line => line ++ "\n"
  | asked question => question

end TerminalEvent

/-- The lines that are still to be read, where the input may end in between, and the percentage
that was seen last. -/
structure Terminal where
  input : List (Option String) := []
  lastPercent : Int := -1
deriving Inhabited

/-- A run at a terminal. -/
abbrev Dialogue (α : Type) := Run TerminalEvent Terminal α

namespace Console

/-- Prints a line. -/
def print (line : String) : Dialogue Unit :=
  Run.emit (.printed line)

/-! ## Notices -/

/-- The first argument of a notice, which must have one. -/
def subject (n : Notice) : Fallible Value :=
  match n.args with
  | v :: _ => .ok v
  | [] => .error .outOfRange

/-- The whole part of a percentage, which may have been reported as text. -/
def wholePercent : Value → Fallible Int
  | .bool b => .ok (if b then 1 else 0)
  | .int i => .ok i
  | .float x =>
    match Number.Binary64.ofFloat x with
    | .nan => .error (.invalid "cannot convert float NaN to integer")
    | .infinite _ => .error .overflow
    | .finite negative m q => .ok (Number.truncateParts negative m q)
  | .minusNaN => .error (.invalid "cannot convert float NaN to integer")
  | .str s =>
    match Text.integer? s with
    | some i => .ok i
    | none => .error .notNumber
  | _ => .error .mistyped

/-- The tenth that a percentage belongs to. -/
def tenth (percent : Int) : Int := Int.fdiv percent 10

/-- Remembers a percentage. -/
def remember (percent : Int) : Dialogue Unit :=
  Run.world fun w => ((), { w with lastPercent := percent })

/-- Shows a percentage if it is in another tenth than the last one and above zero. -/
def showProgress (percent : Int) : Dialogue Unit := do
  let last ← Run.world fun w => (w.lastPercent, w)
  if tenth percent != tenth last && 0 < percent then
    print ("   " ++ (← Value.numeral percent) ++ "%")
  remember percent

/-- Shows a notice. -/
def notify (n : Notice) : Dialogue Unit := do
  match n.kind with
  | .status =>
    print ("== " ++ (← (← subject n).shown))
    remember (-1)
  | .under => print ("   " ++ (← (← subject n).shown))
  | .progress => showProgress (← wholePercent (← subject n))
  | .done => print "Done."
  | .noNetwork => print "!! Network unavailable. Check your connection."
  | .deviceUnsupported => print ("!! Device " ++ (← (← subject n).shown) ++ " is not supported.")
  | .working | .speed => return

/-! ## What a question is about -/

/-- The headline of a prompt, if it has one of its own. -/
def headline? : Prompt → Option String
  | .connectionLost => some "Connection to the device was lost."
  | .lowPower => some "The device battery is too low. Please charge it."
  | .error => some "An error occurred."
  | _ => none

/-- The instruction of a given name; null if it is not known. -/
def instruction (known : Value) (name : Value) : Fallible Value :=
  match known with
  | .mapping es => if name.isKey then .ok ((Entries.get? name es).getD .null) else .error .mistyped
  | _ => .error .mistyped

/-- The line for an instruction that a list names. -/
def instructionLine (known : Value) (name : Value) : Fallible String := do
  match (← instruction known name).orElse (.mapping []) with
  | .mapping es =>
    let title := (Entries.field? "title" es).getD name
    let description := (Entries.field? "description" es).getD (.str "")
    return " - " ++ (← title.shown) ++ ": " ++ (← description.shown)
  | _ => throw .mistyped

/-- Prints what a question is about. -/
def describe (r : PromptRequest) : Dialogue Unit := do
  if let some line := headline? r.prompt then print ("!! " ++ line)
  if r.prompt = .oemLock then
    print (if (r.data.fieldD "enable").truth then
        "!! Enable 'OEM unlocking' in the developer options of your device."
      else "!! The bootloader is locked and will be unlocked. This may wipe your data.")
  if r.prompt = .eula then print (← (r.data.fieldD "eula").shown)
  Run.each (fun key => do if (r.data.fieldD key).truth then print (← (r.data.fieldD key).shown))
    ["title", "description"]
  let unlock ← (r.data.fieldD "unlock").listOrEmpty
  let prerequisites ← (r.data.fieldD "prerequisites").listOrEmpty
  let known := (r.data.fieldD "user_actions").orElse (.mapping [])
  Run.each (fun name => do print (← instructionLine known name)) (unlock ++ prerequisites)
  if let some action := r.action then
    if !action.isEmpty then print ("   action: " ++ action)
  if let some cause := r.cause then
    if !cause.isEmpty then print ("   cause: " ++ cause)

/-! ## Answers -/

/-- The next line of input, trimmed. -/
def ask (assumeYes : Bool) (question : String) (default : String := "") : Dialogue String := do
  if assumeYes then return default
  Run.emit (.asked question)
  match ← Run.world fun w => (w.input.head?.join, { w with input := w.input.tail }) with
  | some line => return Text.trim line
  | none => Run.raise (.killed "input closed")

/-- What a listed value can be chosen by, and what choosing it gives. The texts of the values are
made one after the other, up to the one that is chosen. -/
def listedValue (answer : String) : List Value → Fallible (Option Value)
  | [] => .ok none
  | .mapping es :: vs => do
    let value := Entries.fieldD "value" es
    let text ← value.shown
    let label ← (Entries.fieldD "label" es).shown
    if answer = text || answer = label then return some value
    listedValue answer vs
  | _ :: vs => listedValue answer vs

/-- The value at a position of a list of values. -/
def valueAt (values : List Value) (i : Nat) : Value :=
  match values[i]? with
  | some (.mapping es) => Entries.fieldD "value" es
  | _ => .null

/-- The value that an answer gives to an option with listed values: by position, by value or by
label, and the present value for anything else. -/
def chosen (values : List Value) (answer : String) (present : Value) : Fallible Value :=
  if Text.allDigits answer then
    match Text.number? answer with
    | none => .error .notNumber
    | some i =>
      if i < values.length then .ok (valueAt values i)
      else (listedValue answer values).map fun value => value.getD present
  else (listedValue answer values).map fun value => value.getD present

/-- The answers that check a box. -/
def checks : List String := ["y", "yes", "true", "1", "on"]

/-- The value that an answer gives to an option; an empty answer leaves it as it is. -/
def optionValue (option : Entries) (values : List Value) (answer : String) (present : Value) :
    Fallible Value :=
  if answer.isEmpty then .ok present
  else if Value.same (option.fieldD "type") (.str "checkbox") then
    .ok (.bool (checks.contains (Text.lowercase answer)))
  else if values.isEmpty then .ok (.str answer)
  else chosen values answer present

/-- The line for a listed value. -/
def valueLine (i : Nat) (v : Value) : Fallible String :=
  match v with
  | .mapping es =>
    let label := (Entries.field? "label" es).getD (Entries.fieldD "value" es)
    label.shown.map fun text => "   [" ++ toString i ++ "] " ++ text
  | _ => .error .mistyped

/-- Prints listed values from the `i`th on. -/
def printValues (i : Nat) : List Value → Dialogue Unit
  | [] => return
  | v :: vs => do
    print (← valueLine i v)
    printValues (i + 1) vs

/-- Asks for one option: the values with its own among them. -/
def configureOne (assumeYes : Bool) (values : Entries) (option : Value) : Dialogue Entries := do
  match option with
  | .mapping es =>
    let var := Entries.fieldD "var" es
    if !var.truth then return values
    if !var.isKey then Run.raise .mistyped
    let present := (values.get? var).getD .null
    let label := (Entries.fieldD "name" es).orElse var
    let listed ← (Entries.fieldD "values" es).listOrEmpty
    printValues 0 listed
    let answer ← ask assumeYes ((← label.shown) ++ " [" ++ (← present.shown) ++ "]: ")
    return values.put var (← optionValue es listed answer present)
  | _ => Run.raise .mistyped

/-- Asks for options one after the other. -/
def configureAll (assumeYes : Bool) (values : Entries) : List Value → Dialogue Entries
  | [] => return values
  | option :: options => do
    configureAll assumeYes (← configureOne assumeYes values option) options

/-- Asks for all options that a question lists. -/
def configure (assumeYes : Bool) (data : Entries) : Dialogue Entries := do
  let values ← ((data.fieldD "values").orElse (.mapping [])).asMapping
  configureAll assumeYes values (← (data.fieldD "options").listOrEmpty)

/-- The choice that an answer to a failure makes. -/
def errorChoice (answer : String) : Choice :=
  if ["r", "retry"].contains answer then .retry
  else if ["i", "ignore"].contains answer then .ignore
  else .abort

/-- The choice that an answer to any other question makes. -/
def plainChoice (answer : String) : Choice :=
  if ["", "y", "yes", "c", "continue"].contains answer then .continue else .abort

/-- Puts a question and reads its answer. -/
def decide (assumeYes : Bool) (r : PromptRequest) : Dialogue Decision := do
  describe r
  match r.prompt with
  | .configure => return { value := .mapping (← configure assumeYes r.data) }
  | .manualDownload =>
    let path ← ask assumeYes "Path to the downloaded file: "
    return { value := if path.isEmpty then .null else .str path }
  | .error =>
    let answer ← ask assumeYes "[r]etry, [i]gnore or [a]bort? " "a"
    return { choice := errorChoice (Text.lowercase answer) }
  | _ =>
    let answer ← ask assumeYes "Press Enter to continue, or type 'abort': "
    return { choice := plainChoice (Text.lowercase answer) }

end Console

end Reflash
