import Reflash.Text.Search

set_option autoImplicit false

/-! # Tags of a YAML document

A tag says what kind of value a node stands for. A plain scalar without one is tagged by its form
(`Tag.ofPlain`): a truth value, a number in one of several notations, a date or a time, null, one
of two marks with a meaning inside mappings, or else text. -/

namespace Reflash.Yaml

/-- The kinds of value that a node can stand for. -/
inductive Tag where
  | null
  | bool
  | int
  | float
  | binary
  | timestamp
  | omap
  | pairs
  | set
  | str
  | seq
  | map
  | merge
  | value
  | unknown (name : String)
deriving Repr, DecidableEq

namespace Tag

/-- What the full names of the known tags begin with. -/
def domain : String := "tag:yaml.org,2002:"

/-- The short names of the tags that documents can write. -/
def names : List (String × Tag) :=
  [("null", null), ("bool", bool), ("int", int), ("float", float), ("binary", binary),
    ("timestamp", timestamp), ("omap", omap), ("pairs", pairs), ("set", set), ("str", str),
    ("seq", seq), ("map", map), ("merge", merge), ("value", value)]

/-- The tag of a full name. -/
def ofText (name : String) : Tag :=
  ((names.find? fun n => domain ++ n.1 == name).map Prod.snd).getD (unknown name)

/-! ## Forms of plain scalars -/

/-- Whether `c` is a digit or an underscore. -/
def isGrouped (c : Char) : Bool := c.isDigit || c == '_'

/-- The characters behind a sign, if there is one. -/
def unsigned : List Char → List Char
  | '+' :: cs => cs
  | '-' :: cs => cs
  | cs => cs

/-- Whether a part of a sexagesimal number is between 0 and 59. -/
def isSixtieth : List Char → Bool
  | [a] => a.isDigit
  | [a, b] => '0' ≤ a && a ≤ '5' && b.isDigit
  | _ => false

/-- Whether the characters are digits with underscores between and behind them. -/
def isCount : List Char → Bool
  | c :: cs => c.isDigit && cs.all isGrouped
  | [] => false

/-- Whether a whole number is written, without its sign. -/
def isWholeForm (cs : List Char) : Bool :=
  match cs with
  | ['0'] => true
  | '0' :: 'b' :: rest => !rest.isEmpty && rest.all fun c => c == '0' || c == '1' || c == '_'
  | '0' :: 'x' :: rest =>
    !rest.isEmpty && rest.all fun c =>
      isGrouped c || ('a' ≤ c && c ≤ 'f') || ('A' ≤ c && c ≤ 'F')
  | '0' :: rest => rest.all fun c => ('0' ≤ c && c ≤ '7') || c == '_'
  | cs =>
    match Text.splitList ':' cs with
    | first :: rest => isCount first && rest.all isSixtieth
    | [] => false

/-- Whether an exponent with a sign is written, or nothing. -/
def isExponentForm : List Char → Bool
  | [] => true
  | e :: sign :: digits =>
    (e == 'e' || e == 'E') && (sign == '+' || sign == '-') && !digits.isEmpty &&
      digits.all Char.isDigit
  | _ => false

/-- Whether a fraction with an optional exponent is written, from behind its point on. -/
def isFractionForm (cs : List Char) : Bool :=
  isExponentForm (cs.dropWhile isGrouped)

/-- Whether a number with a fraction is written, without its sign. -/
def isPointForm (cs : List Char) : Bool :=
  match Text.splitFirstList '.' cs with
  | none => false
  | some (whole, fraction) =>
    match Text.splitList ':' whole with
    | [first] => isCount first && isFractionForm fraction
    | first :: rest => isCount first && rest.all isSixtieth && fraction.all isGrouped
    | [] => false

/-- Whether a floating-point number is written. -/
def isFloatForm (cs : List Char) : Bool :=
  isPointForm (unsigned cs) ||
    match cs with
    | '.' :: d :: rest =>
      (d.isDigit && isFractionForm rest) ||
        [".inf", ".Inf", ".INF", ".nan", ".NaN", ".NAN"].contains (String.ofList cs)
    | _ => ["+.inf", "+.Inf", "+.INF", "-.inf", "-.Inf", "-.INF"].contains (String.ofList cs)

/-- The words for truth values. -/
def truthWords : List String :=
  ["yes", "Yes", "YES", "no", "No", "NO", "true", "True", "TRUE", "false", "False", "FALSE",
    "on", "On", "ON", "off", "Off", "OFF"]

/-- The words for null. -/
def nullWords : List String := ["", "~", "null", "Null", "NULL"]

end Tag

/-- A time as it is written: hour, minute, second, the digits of a fraction, and the distance from
universal time as sign, hours and minutes. -/
structure Clock where
  hour : Nat
  minute : Nat
  second : Nat
  fraction : List Char
  zone : Option (Bool × Nat × Nat)
deriving Repr, DecidableEq

/-- A date or a time as it is written; `short` if a month or a day has one digit only. -/
structure Stamp where
  year : Nat
  month : Nat
  day : Nat
  short : Bool
  clock : Option Clock
deriving Repr, DecidableEq

namespace Stamp

/-- The number that a run of digits denotes. -/
def number (cs : List Char) : Nat := cs.foldl (fun n c => 10 * n + (c.toNat - 48)) 0

/-- A number of one or two digits, and the rest. -/
def oneOrTwo : List Char → Option (List Char × List Char)
  | a :: b :: rest =>
    if a.isDigit then if b.isDigit then some ([a, b], rest) else some ([a], b :: rest) else none
  | [a] => if a.isDigit then some ([a], []) else none
  | [] => none

/-- A number of two digits, and the rest. -/
def two : List Char → Option (Nat × List Char)
  | a :: b :: rest => if a.isDigit && b.isDigit then some (number [a, b], rest) else none
  | _ => none

/-- The rest behind a character, if it comes next. -/
def behind (c : Char) : List Char → Option (List Char)
  | x :: rest => if x = c then some rest else none
  | [] => none

/-- The minutes of a distance from universal time, which must end the text. -/
def zoneMinutes : List Char → Option Nat
  | [] => some 0
  | ':' :: rest =>
    match two rest with
    | some (n, []) => some n
    | _ => none
  | _ => none

/-- A distance from universal time, which must end the text. -/
def zone? (cs : List Char) : Option (Option (Bool × Nat × Nat)) :=
  let cs := cs.dropWhile fun c => c == ' ' || c == '\t'
  match cs with
  | ['Z'] => some (some (false, 0, 0))
  | sign :: rest =>
    if sign == '+' || sign == '-' then do
      let (hours, rest) ← oneOrTwo rest
      return some (sign == '-', number hours, ← zoneMinutes rest)
    else none
  | [] => none

/-- The zone at the end of a time; blanks need one behind them. -/
def zoneOrEnd (cs : List Char) : Option (Option (Bool × Nat × Nat)) :=
  if cs.isEmpty then some none else zone? cs

/-- A time of a day. -/
def clock? (cs : List Char) : Option Clock := do
  let (hour, cs) ← oneOrTwo cs
  let (minute, cs) ← two (← behind ':' cs)
  let (second, cs) ← two (← behind ':' cs)
  let (fraction, cs) :=
    match cs with
    | '.' :: rest => (rest.takeWhile Char.isDigit, rest.dropWhile Char.isDigit)
    | cs => ([], cs)
  let zone ← zoneOrEnd cs
  return ⟨number hour, minute, second, fraction, zone⟩

/-- The time behind a date, from the mark or the blanks between them on. -/
def clockBehind? : List Char → Option Clock
  | c :: cs =>
    if c == 'T' || c == 't' then clock? cs
    else if c == ' ' || c == '\t' then clock? (cs.dropWhile fun x => x == ' ' || x == '\t')
    else none
  | [] => none

/-- A date, or a time of a date. -/
def ofText? (cs : List Char) : Option Stamp := do
  let year := cs.take 4
  if year.length != 4 || !year.all Char.isDigit then none
  let (month, rest) ← oneOrTwo (← behind '-' (cs.drop 4))
  let (day, rest) ← oneOrTwo (← behind '-' rest)
  let clock ← if rest.isEmpty then some none else (clockBehind? rest).map some
  return ⟨number year, number month, number day, month.length == 1 || day.length == 1, clock⟩

/-- Whether a plain scalar of this form is a date or a time: a date alone has all its digits. -/
def isPlainForm (s : Stamp) : Bool := s.clock.isSome || !s.short

end Stamp

/-- The tag of a plain scalar. -/
def Tag.ofPlain (text : String) : Tag :=
  let cs := text.toList
  if truthWords.contains text then .bool
  else if nullWords.contains text then .null
  else if isFloatForm cs then .float
  else if isWholeForm (unsigned cs) then .int
  else if text = "<<" then .merge
  else if text = "=" then .value
  else if ["!", "&", "*"].contains text then .unknown (domain ++ "yaml")
  else if (Stamp.ofText? cs).any Stamp.isPlainForm then .timestamp
  else .str

end Reflash.Yaml
