import Reflash.Condition
import Reflash.Value.Writing

set_option autoImplicit false

/-! # Settings

The settings of a run are written while the installation is configured and frozen before its first
step. A frozen settings object refuses every write and stays as it is. -/

namespace Reflash

/-- The settings of a run. -/
structure Settings where
  data : Entries := []
  frozen : Bool := false
deriving Inhabited

namespace Settings

/-- Stores one value. -/
def set (s : Settings) (key value : Value) : Fallible Settings :=
  if s.frozen then do
    throw (.runtime ("settings are frozen; cannot set " ++ (← key.exact)))
  else .ok { s with data := s.data.put key value }

/-- Stores every entry of a mapping, in order. -/
def update (s : Settings) : List (Value × Value) → Fallible Settings
  | [] => .ok s
  | (key, value) :: rest =>
    match s.set key value with
    | .error e => .error e
    | .ok s => s.update rest

/-- Refuses all later writes. -/
def freeze (s : Settings) : Settings :=
  { s with frozen := true }

/-- The value of a setting. -/
def get? (s : Settings) (key : Value) : Option Value :=
  s.data.get? key

/-- The value of a setting that must be there. -/
def item (s : Settings) (key : Value) : Fallible Value :=
  match s.get? key with
  | some v => .ok v
  | none => .error (.missingKey key)

/-- Whether the settings are the given entries, whatever their order. -/
def same (s : Settings) (entries : Entries) : Bool :=
  (Value.mapping s.data).same (.mapping entries)

/-- The text in records. -/
def literal (s : Settings) : String :=
  "Settings(" ++ (Value.mapping s.data).literal ++ ", frozen=" ++
    (Value.bool s.frozen).literal ++ ")"

end Settings

end Reflash
