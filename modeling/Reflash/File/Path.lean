import Reflash.Text.Search
import Reflash.Text.Lowercase

set_option autoImplicit false

/-! # File paths

A path is an anchor and components. Empty components and `.` are dropped when a path is read, `..`
stays; joining an absolute path to another replaces it. -/

namespace Reflash

/-- A path. `anchor` is empty for a relative path, and one or two slashes for an absolute one. -/
structure Path where
  anchor : String := ""
  parts : List String := []
deriving Repr, DecidableEq, Inhabited

namespace Path

/-- The anchor of a written path: exactly two slashes at the start are kept apart from one. -/
def anchorOf : List Char → String
  | '/' :: '/' :: '/' :: _ => "/"
  | '/' :: '/' :: _ => "//"
  | '/' :: _ => "/"
  | _ => ""

/-- The components of a written path. -/
def partsOf (s : String) : List String :=
  (Text.split '/' s).filter fun part => part != "" && part != "."

/-- The path that a text denotes. -/
def ofText (s : String) : Path :=
  ⟨anchorOf s.toList, partsOf s⟩

/-- Whether the path is anchored. -/
def isAbsolute (p : Path) : Bool :=
  p.anchor != ""

/-- The path `q` seen from `p`. -/
def join (p q : Path) : Path :=
  if q.isAbsolute then q else ⟨p.anchor, p.parts ++ q.parts⟩

/-- The path that a text denotes, seen from `p`. -/
def child (p : Path) (s : String) : Path :=
  p.join (ofText s)

/-- The written form; a path without anything is a dot. -/
def text (p : Path) : String :=
  if p.anchor = "" && p.parts.isEmpty then "."
  else p.anchor ++ "/".intercalate p.parts

/-- The last component; empty if there is none. -/
def name (p : Path) : String :=
  p.parts.getLast?.getD ""

/-- The path without its last component. -/
def parent (p : Path) : Path :=
  ⟨p.anchor, p.parts.dropLast⟩

/-- The path with another last component. -/
def withName (p : Path) (name : String) : Path :=
  ⟨p.anchor, p.parts.dropLast ++ [name]⟩

/-- A name split before its last dot. A dot at either end of the name does not split it. -/
def splitSuffix (name : String) : String × String :=
  let cs := name.toList
  let tail := (cs.reverse.takeWhile (· != '.')).reverse
  let stem := cs.take (cs.length - tail.length - 1)
  if tail.length = cs.length || tail.isEmpty || stem.isEmpty then (name, "")
  else (String.ofList stem, String.ofList ('.' :: tail))

/-- The last component without its suffix. -/
def stem (p : Path) : String :=
  (splitSuffix p.name).1

/-- The suffix of the last component, with its dot; empty if there is none. -/
def suffix (p : Path) : String :=
  (splitSuffix p.name).2

end Path

end Reflash
