import Reflash.Document.Yaml.Cursor
import Reflash.Document.Yaml.Tag
import Reflash.Fault
import Reflash.Number.Reading
import Reflash.Text.Base64
import Reflash.Text.Lowercase

set_option autoImplicit false

/-! # What the text of a scalar denotes

Each tag of a scalar has a notation. A text that was tagged by its form nearly always fits; one
whose tag was written may not, and the failure then depends on the notation. -/

namespace Reflash.Yaml

open Reflash.Number

/-- The text without underscores. -/
def ungrouped (text : String) : List Char :=
  text.toList.filter (· != '_')

/-- The sign before a number, whether it is a minus, and what follows; a number has at least one
character. -/
def signedText : List Char → Fallible (Bool × List Char)
  | [] => .error .outOfRange
  | '-' :: cs => .ok (true, cs)
  | '+' :: cs => .ok (false, cs)
  | cs => .ok (false, cs)

/-! ## Truth values and whole numbers -/

/-- The truth value that a word denotes in any case. -/
def truthValue (text : String) : Fallible Value :=
  let word := Text.lowercase text
  if ["yes", "true", "on"].contains word then .ok (.bool true)
  else if ["no", "false", "off"].contains word then .ok (.bool false)
  else .error (.missingKey (.str word))

/-- The whole number that decimal digits denote. -/
def decimalNumber (cs : List Char) : Fallible Int :=
  match Text.integer? (String.ofList cs) with
  | some i => .ok i
  | none => .error .notNumber

/-- The sum of parts that count in sixties, the last part in ones. -/
def sixties (parts : List Int) : Int :=
  parts.foldl (fun n part => 60 * n + part) 0

/-- The magnitude of a whole number in any of its notations. -/
def wholeMagnitude (cs : List Char) : Fallible Int :=
  let base (b : Nat) (mark : Char) (digits : List Char) : Fallible Int :=
    match wholeIn? b mark digits with
    | some i => .ok i
    | none => .error .notNumber
  match cs with
  | [] => .error .outOfRange
  | ['0'] => .ok 0
  | '0' :: 'b' :: digits => base 2 'b' digits
  | '0' :: 'x' :: digits => base 16 'x' digits
  | '0' :: _ => base 8 'o' cs
  | cs =>
    if cs.contains ':' then ((Text.splitList ':' cs).mapM decimalNumber).map sixties
    else decimalNumber cs

/-- The whole number that a text denotes. -/
def wholeNumber (text : String) : Fallible Value := do
  let (negative, cs) ← signedText (ungrouped text)
  let i ← wholeMagnitude cs
  return .int (if negative then -i else i)

/-! ## Floating-point numbers -/

/-- The floating-point number that one part of a text denotes. -/
def realPart (cs : List Char) : Fallible Float :=
  match real? cs with
  | some x => .ok x
  | none =>
    .error (.invalid ("could not convert string to float: " ++ Text.quoted (String.ofList cs)))

/-- The sum of parts that count in sixties, from the last part on, which counts in ones. A unit
too large to be a floating-point number is a failure. -/
def realSixties (unit : Nat) (sum : Float) : List Float → Fallible Float
  | [] => .ok sum
  | part :: parts =>
    match ofWhole? unit with
    | some u => realSixties (60 * unit) (sum + part * u) parts
    | none => .error .overflow

/-- The magnitude of a floating-point number. -/
def realMagnitude (cs : List Char) : Fallible Float :=
  if cs.contains ':' then do
    let parts ← (Text.splitList ':' cs).mapM realPart
    realSixties 1 0.0 parts.reverse
  else realPart cs

/-- The floating-point number that a text denotes. -/
def realNumber (text : String) : Fallible Value := do
  let (negative, cs) ← signedText (Text.lowercase (String.ofList (ungrouped text))).toList
  if cs == ".inf".toList then
    return .float (if negative then -(1.0 / 0.0) else 1.0 / 0.0)
  else if cs == ".nan".toList then return .minusNaN
  else
    let x ← realMagnitude cs
    return .float (if negative then -x else x)

/-! ## Dates and times -/

/-- The microseconds that the digits of a fraction of a second denote; digits behind the sixth are
dropped. -/
def microseconds (fraction : List Char) : Nat :=
  Stamp.number ((fraction ++ List.replicate 6 '0').take 6)

/-- The exact text of a span of minutes as whole days and the seconds of the last one. -/
def spanLiteral (minutes : Int) : String :=
  let days := Int.fdiv minutes 1440
  let seconds := (minutes - days * 1440) * 60
  "datetime.timedelta(days=" ++ toString days ++
    (if seconds = 0 then "" else ", seconds=" ++ toString seconds) ++ ")"

/-- The distance from universal time in minutes, which must be less than a day. -/
def zoneOffset (zone : Bool × Nat × Nat) : Fallible Int :=
  let (negative, hours, minutes) := zone
  let size : Int := hours * 60 + minutes
  let offset := if negative then -size else size
  if 1440 ≤ size then
    .error (.invalid ("offset must be a timedelta strictly between -timedelta(hours=24) and " ++
      "timedelta(hours=24), not " ++ spanLiteral offset ++ "."))
  else .ok offset

/-- A day that the calendar has. -/
def checkedDate (s : Stamp) : Fallible Date :=
  if s.year = 0 then .error (.invalid "year 0 is out of range")
  else if s.month = 0 || 12 < s.month then .error (.invalid "month must be in 1..12")
  else if s.day = 0 || Date.daysIn s.year s.month < s.day then
    .error (.invalid "day is out of range for month")
  else .ok ⟨s.year, s.month, s.day⟩

/-- A time that a day has. -/
def checkedTime (date : Date) (offset : Option Int) (c : Clock) : Fallible DateTime :=
  if 23 < c.hour then .error (.invalid "hour must be in 0..23")
  else if 59 < c.minute then .error (.invalid "minute must be in 0..59")
  else if 59 < c.second then .error (.invalid "second must be in 0..59")
  else .ok ⟨date, c.hour, c.minute, c.second, microseconds c.fraction, offset⟩

/-- The date or the time that a text denotes. -/
def dateOrTime (text : String) : Fallible Value :=
  match Stamp.ofText? text.toList with
  | none => .error .mistyped
  | some s =>
    match s.clock with
    | none => do return .date (← checkedDate s)
    | some c => do
      let offset ← c.zone.mapM zoneOffset
      let date ← checkedDate s
      return .dateTime (← checkedTime date offset c)

/-! ## All scalars -/

/-- The bytes that a text stands for. -/
def encodedBytes (text : String) : Fallible Value :=
  let cs := text.toList
  if cs.all fun c => c.toNat < 128 then
    match Text.base64? cs with
    | some bytes => .ok (.bytes bytes)
    | none => refuse
  else refuse

/-- The value of a text with a tag for scalars; any other tag stands for a failure. -/
def Tag.denote (tag : Tag) (text : String) : Fallible Value :=
  match tag with
  | .null => .ok .null
  | .bool => truthValue text
  | .int => wholeNumber text
  | .float => realNumber text
  | .binary => encodedBytes text
  | .timestamp => dateOrTime text
  | .str => .ok (.str text)
  | _ => refuse

end Reflash.Yaml
