import Reflash.Number.Text

set_option autoImplicit false

/-! # Dates and times

Documents may hold dates, and times of a date with an optional distance from universal time. -/

namespace Reflash

open Reflash.Number (padded)

/-- A day of the calendar. -/
structure Date where
  year : Nat
  month : Nat
  day : Nat
deriving Repr, DecidableEq

/-- A time of a day; `offset` is the distance from universal time in minutes, if it is known. -/
structure DateTime where
  date : Date
  hour : Nat
  minute : Nat
  second : Nat
  micro : Nat
  offset : Option Int
deriving Repr, DecidableEq

namespace Date

/-- Whether a year has a 29th of February. -/
def isLeap (year : Nat) : Bool :=
  year % 4 == 0 && (year % 100 != 0 || year % 400 == 0)

/-- The number of days of a month. -/
def daysIn (year month : Nat) : Nat :=
  if month = 2 then (if isLeap year then 29 else 28)
  else if month = 4 || month = 6 || month = 9 || month = 11 then 30 else 31

/-- The days before the first of January of `year`, counted from year 1. -/
def daysBeforeYear (year : Nat) : Nat :=
  let y := year - 1
  y * 365 + y / 4 - y / 100 + y / 400

/-- The days of `year` before the first of `month`. -/
def daysBeforeMonth (year month : Nat) : Nat :=
  (List.range (month - 1)).foldl (fun days m => days + daysIn year (m + 1)) 0

/-- The number of a day, counted from the first of January of year 1. -/
def ordinal (d : Date) : Nat :=
  daysBeforeYear d.year + daysBeforeMonth d.year d.month + d.day

/-- The day `days` days after the first of a month of a year, for days of the same year. -/
def inYear (year days : Nat) : Nat → Date
  | 0 => ⟨year, 12, days + 1⟩
  | left + 1 =>
    let month := 12 - left
    let size := daysIn year month
    if days < size || left = 0 then ⟨year, month, days + 1⟩ else inYear year (days - size) left

/-- The day `days` days after the first of January of `year`, looked for in at most `fuel` years
more. -/
def afterYear (days : Nat) : Nat → Nat → Date
  | 0, year => inYear year days 12
  | fuel + 1, year =>
    let size := if isLeap year then 366 else 365
    if days < size then inYear year days 12 else afterYear (days - size) fuel (year + 1)

/-- Year, month and day with dashes. -/
def text (d : Date) : String :=
  padded 4 d.year ++ "-" ++ padded 2 d.month ++ "-" ++ padded 2 d.day

end Date

namespace DateTime

/-- The clock time as microseconds of the calendar, without regard to the offset. -/
def localMicros (t : DateTime) : Int :=
  (((t.date.ordinal * 24 + t.hour) * 60 + t.minute) * 60 + t.second) * 1000000 + t.micro

/-- The instant in microseconds of universal time, for a time whose offset is known. -/
def instant? (t : DateTime) : Option Int :=
  t.offset.map fun minutes => t.localMicros - minutes * 60000000

/-- Whether two times are the same instant, or the same clock time when neither has an offset. -/
def same (a b : DateTime) : Bool :=
  match a.instant?, b.instant? with
  | some x, some y => x == y
  | none, none => a.localMicros == b.localMicros
  | _, _ => false

/-- An offset as signed hours and minutes. -/
def offsetText (minutes : Int) : String :=
  (if minutes < 0 then "-" else "+") ++ padded 2 (minutes.natAbs / 60) ++ ":" ++
    padded 2 (minutes.natAbs % 60)

/-- Date and time with `separator` between them; a fraction of a second only if there is one. -/
def text (separator : String) (t : DateTime) : String :=
  t.date.text ++ separator ++ padded 2 t.hour ++ ":" ++ padded 2 t.minute ++ ":" ++
    padded 2 t.second ++ (if t.micro = 0 then "" else "." ++ padded 6 t.micro) ++
    (t.offset.map offsetText).getD ""

/-- The time `seconds` seconds after the beginning of 1970. -/
def ofSeconds (seconds : Nat) : DateTime :=
  let days := seconds / 86400
  let rest := seconds % 86400
  ⟨Date.afterYear days (days / 365 + 1) 1970, rest / 3600, rest / 60 % 60, rest % 60, 0, some 0⟩

end DateTime

end Reflash
