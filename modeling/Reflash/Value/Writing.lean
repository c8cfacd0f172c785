import Reflash.Fault
import Reflash.Text.Digit

set_option autoImplicit false

/-! # Values that can be written

A whole number is written in decimal only up to a number of digits, as it is read only up to that
number (`Text.mostDigits`). A document can hold longer ones, in notations whose base is a power of
two. So the text of a value need not exist: `Value.shown` and `Value.exact` are the texts of
`Value.text` and `Value.literal` for the values in which every number can be written. -/

namespace Reflash

namespace Value

/-- Whether a whole number has few enough digits to be written. -/
def hasNumeral (i : Int) : Bool :=
  Text.fitsDigits Text.mostDigits i.natAbs

/-- A whole number in decimal. -/
def numeral (i : Int) : Fallible String :=
  if hasNumeral i then .ok (toString i) else .error .unwritable

mutual

/-- Whether every whole number in a value can be written. -/
def writable : Value → Bool
  | .int i => hasNumeral i
  | .tuple xs | .list xs | .set xs => areWritable xs
  | .mapping es => entriesWritable es
  | _ => true

/-- Whether all of `xs` can be written. -/
def areWritable : List Value → Bool
  | [] => true
  | x :: xs => writable x && areWritable xs

/-- Whether all keys and values of a mapping can be written. -/
def entriesWritable : List (Value × Value) → Bool
  | [] => true
  | (k, v) :: es => writable k && writable v && entriesWritable es

end

/-- The text of a value for reading, if it can be written. -/
def shown (v : Value) : Fallible String :=
  if v.writable then .ok v.text else .error .unwritable

/-- The exact text of a value, if it can be written. -/
def exact (v : Value) : Fallible String :=
  if v.writable then .ok v.literal else .error .unwritable

@[simp] theorem shown_str (s : String) : shown (.str s) = .ok s := rfl

theorem shown_of_writable {v : Value} (h : v.writable) : v.shown = .ok v.text := if_pos h

theorem shown_of_unwritable {v : Value} (h : v.writable = false) : v.shown = .error .unwritable :=
  if_neg (Bool.eq_false_iff.mp h)

theorem shown_eq_ok {v : Value} {s : String} : v.shown = .ok s ↔ v.writable ∧ v.text = s := by
  unfold shown
  split <;> simp_all

theorem shown_eq_error {v : Value} {e : Fault} :
    v.shown = .error e ↔ v.writable = false ∧ e = .unwritable := by
  cases h : v.writable with
  | true => simp [shown_of_writable h]
  | false => rw [shown_of_unwritable h]; exact ⟨fun he => by cases he; exact ⟨rfl, rfl⟩,
      fun he => by rw [he.2]⟩

theorem exact_eq_error {v : Value} {e : Fault} :
    v.exact = .error e ↔ v.writable = false ∧ e = .unwritable := by
  rw [← shown_eq_error]
  unfold exact shown
  cases v.writable <;> simp

end Value

end Reflash
