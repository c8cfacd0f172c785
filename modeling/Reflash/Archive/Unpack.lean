import Reflash.Archive.Tar
import Reflash.Archive.Zip
import Reflash.File.Disk

set_option autoImplicit false

/-! # Unpacking archives

The end of an archive's name says how to read it. The entries are put below a directory, one after
the other, up to the first flaw of the archive. -/

namespace Reflash.Archive

/-- The ways to read an archive. -/
inductive Format where
  | zip
  | tar
deriving Repr, DecidableEq

/-- The format of archives with a name, if there is one. -/
def Format.ofName? (name : String) : Option Format :=
  if name.endsWith ".zip" then some .zip
  else if [".tar", ".tar.gz", ".tgz"].any fun suffix => name.endsWith suffix then some .tar
  else none

/-- What an archive of a format holds. -/
def Format.read : Format → ByteArray → Listing
  | .zip => Zip.read
  | .tar => Tar.read

/-- What the archive at a path holds. A directory that is named like a zip archive is a damaged
one. -/
def load (fs : FileStore) (archive : Path) : Fallible Listing :=
  match Format.ofName? archive.text, fs.read archive with
  | none, _ => .ok .flawed
  | some .zip, .error .isDirectory => .ok .flawed
  | some format, content => (atPath archive content).map format.read

variable {σ : Type}

/-- Puts an entry below a directory. -/
def place (disk : Disk σ) (target : Path) (e : Entry) : Job σ Unit := do
  let p := target.child e.name
  match e.content with
  | none => disk.ensureDirectory p
  | some content =>
    disk.ensureDirectory p.parent
    disk.change fun fs => atPath p (fs.write p content)

/-- Unpacks an archive into a directory; with `dryRun` it only says so. -/
def unpack (disk : Disk σ) (dryRun : Bool) (archive target : Path) : Job σ Unit := do
  let log (what : String) : Job σ Unit :=
    Host.log .info "lib.assets" (what ++ " " ++ archive.text ++ " -> " ++ target.text)
  if !(← (← disk.current).exists? archive) then Run.raise (.fileMissing archive.text)
  if dryRun then log "Would unpack"
  else
    disk.ensureDirectory target
    log "Unpacking"
    let listing ← load (← disk.current) archive
    Run.each (place disk target) listing.entries
    if listing.damaged then Run.raise .badArchive

end Reflash.Archive
