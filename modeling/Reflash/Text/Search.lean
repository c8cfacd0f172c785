set_option autoImplicit false

/-! # Finding and splitting

Substring search, the split at the first separator, and the split at every one. -/

namespace Reflash.Text

/-- Whether `needle` occurs in `text` as a run of neighbouring characters. -/
def occursIn (needle : List Char) : List Char → Bool
  | [] => needle.isEmpty
  | c :: cs => needle.isPrefixOf (c :: cs) || occursIn needle cs

/-- Whether `needle` occurs in `text`. -/
def contains (text needle : String) : Bool :=
  occursIn needle.toList text.toList

/-- What stands before and after the first `sep`, or nothing if there is none. -/
def splitFirstList (sep : Char) : List Char → Option (List Char × List Char)
  | [] => none
  | c :: cs =>
    if c = sep then some ([], cs)
    else (splitFirstList sep cs).map fun (before, after) => (c :: before, after)

/-- What stands before and after the first `sep`, or nothing if there is none. -/
def splitFirst (sep : Char) (text : String) : Option (String × String) :=
  (splitFirstList sep text.toList).map fun (before, after) =>
    (String.ofList before, String.ofList after)

/-- The parts between the `sep`s; a text without one is its own only part. -/
def splitList (sep : Char) : List Char → List (List Char)
  | [] => [[]]
  | c :: cs =>
    match splitList sep cs with
    | [] => [[c]]
    | part :: parts => if c = sep then [] :: part :: parts else (c :: part) :: parts

/-- The parts between the `sep`s; a text without one is its own only part. -/
def split (sep : Char) (text : String) : List String :=
  (splitList sep text.toList).map String.ofList

/-- The text with every `old` character replaced by `new`. -/
def replaceChar (old : Char) (new : List Char) (text : String) : String :=
  String.ofList (text.toList.flatMap fun c => if c = old then new else [c])

end Reflash.Text
