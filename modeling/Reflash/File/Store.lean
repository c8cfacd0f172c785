import Reflash.Fault
import Reflash.File.Path

set_option autoImplicit false

/-! # A file system

Files and directories as a value. A path is resolved component by component, so `..` needs the
directory before it to exist; an operation that the system would refuse answers with the problem
it would report. There are no links, and nothing is refused for want of permission. -/

namespace Reflash

/-- What stands at a location. -/
inductive Node where
  | file (content : ByteArray)
  | directory
deriving Inhabited

/-- The components of a place below the root, without dots. -/
abbrev Location := List String

/-- A file system and the directory that relative paths start from. -/
structure FileStore where
  nodes : List (Location × Node) := []
  current : Location := []
deriving Inhabited

namespace FileStore

/-- What stands at a location, if anything. The root is a directory. -/
def node? (fs : FileStore) (loc : Location) : Option Node :=
  if loc.isEmpty then some .directory else fs.nodes.lookup loc

/-- Puts a node at a location. -/
def put (fs : FileStore) (loc : Location) (node : Node) : FileStore :=
  if fs.nodes.any fun entry => entry.1 == loc then
    { fs with nodes := fs.nodes.map fun entry => if entry.1 == loc then (loc, node) else entry }
  else { fs with nodes := fs.nodes ++ [(loc, node)] }

/-- Takes away what stands at a location. -/
def remove (fs : FileStore) (loc : Location) : FileStore :=
  { fs with nodes := fs.nodes.filter fun entry => entry.1 != loc }

/-- Whether the names of a path are short enough for the system. -/
def fits (part : String) : Bool :=
  part.utf8ByteSize ≤ 255

/-- The location that components denote seen from a location: all but the last must be
directories. -/
def resolveFrom (fs : FileStore) (loc : Location) : List String → Except FileProblem Location
  | [] => .ok loc
  | part :: rest =>
    if !fits part then .error .nameTooLong
    else
      let next := if part = ".." then loc.dropLast else loc ++ [part]
      if rest.isEmpty then .ok next
      else
        match fs.node? next with
        | some .directory => fs.resolveFrom next rest
        | some (.file _) => .error .notDirectory
        | none => .error .missing

/-- The most bytes of a written path. -/
def longestPath : Nat := 4095

/-- Whether a written path is longer than any that the system takes. -/
def overlong (written : String) : Bool :=
  longestPath < written.utf8ByteSize

/-- Whether a text holds the character that ends a text where the system reads it. -/
def holdsNul (text : String) : Bool :=
  text.toList.contains '\x00'

/-- Whether the system takes a written path, whatever it leads to. -/
def acceptText (written : String) : Except FileProblem Unit :=
  match holdsNul written, overlong written with
  | true, _ => .error .embeddedNul
  | false, true => .error .nameTooLong
  | false, false => .ok ()

/-- The location that a path denotes. -/
def resolve (fs : FileStore) (p : Path) : Except FileProblem Location := do
  acceptText p.text
  fs.resolveFrom (if p.isAbsolute then [] else fs.current) p.parts

/-- What a path leads to. -/
def lookup (fs : FileStore) (p : Path) : Except FileProblem Node :=
  match fs.resolve p with
  | .error e => .error e
  | .ok loc =>
    match fs.node? loc with
    | some node => .ok node
    | none => .error .missing

/-- Whether a path leads to a file. -/
def isFile (fs : FileStore) (p : Path) : Bool :=
  match fs.lookup p with
  | .ok (.file _) => true
  | _ => false

/-- Whether a path leads to a directory. -/
def isDirectory (fs : FileStore) (p : Path) : Bool :=
  match fs.lookup p with
  | .ok .directory => true
  | _ => false

/-- Whether a path leads to anything. -/
def present (fs : FileStore) (p : Path) : Bool :=
  match fs.lookup p with
  | .ok _ => true
  | .error _ => false

/-- The content of a file. -/
def read (fs : FileStore) (p : Path) : Except FileProblem ByteArray :=
  match fs.lookup p with
  | .ok (.file content) => .ok content
  | .ok .directory => .error .isDirectory
  | .error e => .error e

/-- Whether the directory that holds a location is there. -/
def hasParent (fs : FileStore) (loc : Location) : Except FileProblem Unit :=
  match fs.node? loc.dropLast with
  | some .directory => .ok ()
  | some (.file _) => .error .notDirectory
  | none => .error .missing

/-- Makes `content` the content of a file, which need not exist before. -/
def write (fs : FileStore) (p : Path) (content : ByteArray) : Except FileProblem FileStore := do
  let loc ← fs.resolve p
  match fs.node? loc with
  | some .directory => throw .isDirectory
  | some (.file _) => return fs.put loc (.file content)
  | none =>
    fs.hasParent loc
    return fs.put loc (.file content)

/-- Adds `content` to the end of a file, which need not exist before. -/
def append (fs : FileStore) (p : Path) (content : ByteArray) : Except FileProblem FileStore :=
  match fs.read p with
  | .ok old => fs.write p (old ++ content)
  | .error .missing => fs.write p content
  | .error problem => .error problem

/-- Makes one directory. -/
def makeDirectory (fs : FileStore) (p : Path) : Except FileProblem FileStore := do
  let loc ← fs.resolve p
  match fs.node? loc with
  | some _ => throw .alreadyThere
  | none =>
    fs.hasParent loc
    return fs.put loc .directory

/-- Makes a directory and those above it. What is there already is kept; a file in the way is
refused with the path at which it was found. The depth bounds how far up to look. -/
def makeDirectoriesTo (fs : FileStore) : Nat → Path → Except (FileProblem × Path) FileStore
  | depth, p =>
    match fs.makeDirectory p with
    | .ok fs => .ok fs
    | .error .missing =>
      match depth with
      | 0 => .error (.missing, p)
      | depth + 1 =>
        if p.parts.isEmpty then .error (.missing, p)
        else
          match fs.makeDirectoriesTo depth p.parent with
          | .error e => .error e
          | .ok fs =>
            match fs.makeDirectory p with
            | .ok fs => .ok fs
            | .error e => if fs.isDirectory p then .ok fs else .error (e, p)
    | .error e => if fs.isDirectory p then .ok fs else .error (e, p)

/-- Makes a directory and those above it. -/
def makeDirectories (fs : FileStore) (p : Path) : Except (FileProblem × Path) FileStore :=
  fs.makeDirectoriesTo p.parts.length p

/-- Moves a file to another path, where it replaces what was there. -/
def replace (fs : FileStore) (source target : Path) : Except FileProblem FileStore := do
  let start ← fs.resolve source
  let content ← fs.read source
  let stop ← fs.resolve target
  if stop = start then
    return fs
  let moved ← fs.write target content
  return moved.remove start

/-- The names in a directory. -/
def namesIn (fs : FileStore) (loc : Location) : List String :=
  fs.nodes.filterMap fun entry =>
    if entry.1.dropLast == loc then entry.1.getLast? else none

/-- The names in the directory that a path leads to. -/
def list (fs : FileStore) (p : Path) : Except FileProblem (List String) := do
  let loc ← fs.resolve p
  match fs.node? loc with
  | some .directory => return fs.namesIn loc
  | some (.file _) => throw .notDirectory
  | none => throw .missing

/-- Whether a path as it was typed asks for a directory at its end. -/
def asksDirectory (typed : String) : Bool :=
  typed.endsWith "/" || typed.endsWith "/."

/-- What a path as it was typed leads to. -/
def lookupTyped (fs : FileStore) (typed : String) : Except FileProblem Node := do
  acceptText typed
  match ← fs.lookup (.ofText typed) with
  | .directory => return .directory
  | .file content => if asksDirectory typed then throw .notDirectory else return .file content

/-- Whether two paths lead to the same place. -/
def samePlace (fs : FileStore) (p q : Path) : Bool :=
  match fs.resolve p, fs.resolve q with
  | .ok a, .ok b => a == b && (fs.node? a).isSome
  | _, _ => false

end FileStore

/-- A refusal of the file system at one path, as a cause of failure. -/
def atPath {α : Type} (p : Path) (r : Except FileProblem α) : Fallible α :=
  r.mapError fun problem => problem.fault [p.text]

namespace FileStore

/-- Whether a path leads to anything. A way that ends early leads to nothing, and so does a path that
no file can have; other refusals are failures. -/
def exists? (fs : FileStore) (p : Path) : Fallible Bool :=
  match fs.lookup p with
  | .ok _ => .ok true
  | .error .missing | .error .notDirectory | .error .embeddedNul => .ok false
  | .error problem => .error (.file problem [p.text])

/-- Makes a directory and those above it, with a refusal as a cause of failure. -/
def ensureDirectory (fs : FileStore) (p : Path) : Fallible FileStore :=
  (fs.makeDirectories p).mapError fun (problem, at_) => problem.fault [at_.text]

/-- Copies the content of a file that was named by a text to a path. Both are looked at before
anything is done. -/
def copy (fs : FileStore) (source : String) (target : Path) : Fallible FileStore :=
  if holdsNul source || holdsNul target.text then
    .error (FileProblem.embeddedNul.fault [source, target.text])
  else
    match fs.lookupTyped source with
    | .error problem => .error (problem.fault [source])
    | .ok node =>
      if fs.samePlace (.ofText source) target then
        .error (.system (Text.quoted source ++ " and " ++ Text.quoted target.text ++
          " are the same file"))
      else
        match node with
        | .directory => .error (.file .isDirectory [source])
        | .file content => atPath target (fs.write target content)

end FileStore

end Reflash
