import Reflash.Value.Writing

set_option autoImplicit false

/-! # Values as documents

The one-line document text of a value: keys in sorted order, everything beyond ASCII escaped.
Values that documents have no spelling for are written as their text for reading. A mapping has a
document text only if its keys can be sorted and spelled: all of them text, all of them numbers,
or a single null (`Value.keysSpellable`); and every whole number must be short enough to be written
(`Value.numeral`). The keys of a mapping are sorted before anything in it is written, and what is
written first fails first. -/

namespace Reflash

open Reflash.Number

namespace Value

/-- A character of a document text between double quotes. -/
def documentChar (c : Char) : List Char :=
  if c = '"' || c = '\\' then ['\\', c]
  else if c = '\n' then ['\\', 'n']
  else if c = '\r' then ['\\', 'r']
  else if c = '\t' then ['\\', 't']
  else if c = '\x08' then ['\\', 'b']
  else if c = '\x0c' then ['\\', 'f']
  else if 32 ≤ c.toNat && c.toNat < 127 then [c]
  else if c.toNat < 65536 then '\\' :: 'u' :: Text.hexDigits 4 c.toNat
  else
    let n := c.toNat - 65536
    '\\' :: 'u' :: Text.hexDigits 4 (55296 + n / 1024) ++
      '\\' :: 'u' :: Text.hexDigits 4 (56320 + n % 1024)

/-- A text between double quotes. -/
def documentString (s : String) : String :=
  String.ofList ('"' :: (s.toList.flatMap documentChar ++ ['"']))

/-- The text of a key: only text, numbers and null have one. -/
def documentKey : Value → Fallible String
  | .null => .ok "null"
  | .bool b => .ok (if b then "true" else "false")
  | .int i => numeral i
  | .float x => .ok (floatText documentLayout x)
  | .minusNaN => .ok documentLayout.nan
  | .str s => .ok s
  | _ => .error .mistyped

/-- Whether a value is a number. -/
def isNumber : Value → Bool
  | .bool _ | .int _ | .float _ | .minusNaN => true
  | _ => false

/-- Whether a value is a text. -/
def isStr : Value → Bool
  | .str _ => true
  | _ => false

/-- Whether the keys of a mapping can be put in order and spelled. -/
def keysSpellable (keys : List Value) : Bool :=
  match keys with
  | [.null] => true
  | _ => keys.all isStr || keys.all isNumber

/-- A truth value as the number it equals. -/
def asNumber : Value → Value
  | .bool b => .int (if b then 1 else 0)
  | v => v

/-- Whether one key stands before another of its kind. -/
def keyLt (a b : Value) : Bool :=
  match asNumber a, asNumber b with
  | .str s, .str t => s < t
  | .int i, .int j => i < j
  | .int i, .float y => wholeLt i y
  | .float x, .int j => ltWhole x j
  | .float x, .float y => x < y
  | _, _ => false

/-- The entries with their keys in order. -/
def sortedByKey {α : Type} (es : List (Value × α)) : List (Value × α) :=
  es.mergeSort fun a b => !keyLt b.1 a.1

/-- The members of a mapping in their order, each a key and the text of its value. -/
def members : List (Value × Fallible String) → Fallible (List String)
  | [] => .ok []
  | (k, part) :: ps => do
    let key ← documentKey k
    let text ← part
    return (documentString key ++ ": " ++ text) :: (← members ps)

mutual

/-- The document text of a value. -/
def document : Value → Fallible String
  | .null => .ok "null"
  | .bool b => .ok (if b then "true" else "false")
  | .int i => numeral i
  | .float x => .ok (floatText documentLayout x)
  | .minusNaN => .ok documentLayout.nan
  | .str s => .ok (documentString s)
  | .tuple xs | .list xs =>
    (documents xs).map fun parts => "[" ++ ", ".intercalate parts ++ "]"
  | .mapping es =>
    let parts := entryDocuments es
    if keysSpellable (parts.map Prod.fst) then
      (members (sortedByKey parts)).map fun ms => "\x7b" ++ ", ".intercalate ms ++ "\x7d"
    else .error .mistyped
  | v => v.shown.map documentString

/-- The document texts of the elements of a list. -/
def documents : List Value → Fallible (List String)
  | [] => .ok []
  | x :: xs => do return (← document x) :: (← documents xs)

/-- The keys of a mapping, each with the document text of its value. -/
def entryDocuments : List (Value × Value) → List (Value × Fallible String)
  | [] => []
  | (k, v) :: es => (k, document v) :: entryDocuments es

end

/-- The document text of a value, if it has one. -/
def document? (v : Value) : Option String :=
  v.document.toOption

end Value

end Reflash
