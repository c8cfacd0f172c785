import Reflash.Value.Basic
import Reflash.Text.Quoted

set_option autoImplicit false

/-! # Values as text

Two texts of a value. `Value.literal` is the exact one that records and messages use: text stands
between quotes, `None`, `True` and `False` are spelled out, containers show their elements.
`Value.text` is the one meant for reading: text stands as it is, and days and times are written in
the usual way. Both are there for every value, whatever it takes to write it; what is shown of a value
is asked for by `Value.shown` and `Value.exact`, which fail where a number in it has too many digits. -/

namespace Reflash

open Reflash.Number

/-- The parts of a span of time as whole days and the seconds left of the last one. -/
def DateTime.offsetLiteral (minutes : Int) : String :=
  if minutes = 0 then "datetime.timezone.utc"
  else
    let days := Int.fdiv minutes 1440
    let seconds := (minutes - days * 1440) * 60
    let parts := (if days = 0 then [] else ["days=" ++ toString days]) ++
      (if seconds = 0 then [] else ["seconds=" ++ toString seconds])
    "datetime.timezone(datetime.timedelta(" ++ ", ".intercalate parts ++ "))"

/-- The exact text of a day. -/
def Date.literal (d : Date) : String :=
  "datetime.date(" ++ ", ".intercalate ([d.year, d.month, d.day].map toString) ++ ")"

/-- The exact text of a time; seconds and microseconds are shown when they are needed. -/
def DateTime.literal (t : DateTime) : String :=
  let clock := [t.date.year, t.date.month, t.date.day, t.hour, t.minute] ++
    (if t.second = 0 && t.micro = 0 then [] else [t.second]) ++
    (if t.micro = 0 then [] else [t.micro])
  "datetime.datetime(" ++ ", ".intercalate (clock.map toString) ++
    (match t.offset with
     | none => ""
     | some minutes => ", tzinfo=" ++ DateTime.offsetLiteral minutes) ++ ")"

namespace Value

/-- One byte between quotes. -/
def byteLiteral (quote : Char) (b : UInt8) : List Char :=
  let n := b.toNat
  let c := Char.ofNat n
  if c = quote || c = '\\' then ['\\', c]
  else if c = '\t' then ['\\', 't']
  else if c = '\n' then ['\\', 'n']
  else if c = '\r' then ['\\', 'r']
  else if 32 ≤ n && n < 127 then [c]
  else '\\' :: 'x' :: Text.hexDigits 2 n

/-- The exact text of a run of bytes. -/
def bytesLiteral (bs : List UInt8) : String :=
  let quote := Text.quoteFor (bs.map fun b => Char.ofNat b.toNat)
  String.ofList ('b' :: quote :: (bs.flatMap (byteLiteral quote) ++ [quote]))

mutual

/-- The exact text of a value. -/
def literal : Value → String
  | .null => "None"
  | .bool b => if b then "True" else "False"
  | .int i => toString i
  | .float x => floatText plainLayout x
  | .minusNaN => plainLayout.nan
  | .str s => Text.quoted s
  | .bytes bs => bytesLiteral bs
  | .date d => d.literal
  | .dateTime t => t.literal
  | .tuple [x] => "(" ++ literal x ++ ",)"
  | .tuple xs => "(" ++ ", ".intercalate (literals xs) ++ ")"
  | .list xs => "[" ++ ", ".intercalate (literals xs) ++ "]"
  | .set [] => "set()"
  | .set xs => "\x7b" ++ ", ".intercalate (literals xs) ++ "\x7d"
  | .mapping es => "\x7b" ++ ", ".intercalate (entryLiterals es) ++ "\x7d"

/-- The exact texts of the elements of a list. -/
def literals : List Value → List String
  | [] => []
  | x :: xs => literal x :: literals xs

/-- The exact texts of the entries of a mapping. -/
def entryLiterals : List (Value × Value) → List String
  | [] => []
  | (k, v) :: es => (literal k ++ ": " ++ literal v) :: entryLiterals es

end

/-- The text of a value for reading. -/
def text : Value → String
  | .str s => s
  | .date d => d.text
  | .dateTime t => t.text " "
  | v => v.literal

end Value

end Reflash
