import Reflash.File.Checksum
import Reflash.File.Disk
import Reflash.Text.Digit

set_option autoImplicit false

/-! # Downloads

The files of a request that are not there yet, or do not have their checksum, are fetched one after
the other. Each arrives under a name of its own beside its place, is moved there when it is whole,
and is verified before the next one is begun. -/

namespace Reflash

/-- What a server answers: a failure to be reported, or the announced length and the content in
pieces, after which the connection may break. -/
structure Response where
  failure : Option Fault := none
  length : Option String := none
  chunks : List ByteArray := []
  broken : Option Fault := none
deriving Inhabited

namespace Download

variable {σ : Type}

/-- What downloads need of the world: its files, and what is at an address. -/
structure Means (σ : Type) where
  disk : Disk σ
  get : Value → Job σ Response
  /-- The speed at which so many bytes have come, which depends on the clock. -/
  rate : Nat → σ → Value := fun _ _ => .float 0.0

/-- Adds a line to the record. -/
def log (message : String) : Job σ Unit :=
  Host.log .info "lib.download" message

/-- Whether a file is there and has its checksum. -/
def checkFile (means : Means σ) (p : Path) (checksum : Value) : Job σ Bool := do
  Run.ofFallible (Checksum.verify (← means.disk.current) p checksum)

/-- The announced length; zero if there is none. -/
def announced (length : Option String) : Fallible Int :=
  match length with
  | none => .ok 0
  | some text =>
    if text.isEmpty then .ok 0
    else
      match Text.integer? text with
      | some n => .ok n
      | none => .error .notNumber

/-- The part of `total` bytes that is done; zero if the total is not known. -/
def fraction (done : Nat) (total : Int) : Value :=
  if total = 0 then .float 0.0
  else if total < 0 then .float (-Number.quotient done total.natAbs)
  else .float (Number.quotient done total.natAbs)

/-- Adds pieces of a content to a file that has `done` bytes, with a report after each. -/
def receive (means : Means σ) (reports : DownloadReports σ) (partial_ : Path) (total : Int)
    (done : ByteArray) : List ByteArray → Job σ Unit
  | [] => return
  | chunk :: chunks => do
    let done := done ++ chunk
    means.disk.change fun fs => atPath partial_ (fs.write partial_ done)
    let rate ← Run.world fun w => (means.rate done.size w, w)
    reports.progress (fraction done.size total) rate
    receive means reports partial_ total done chunks

/-- Where a file stands while it arrives. -/
def partialPath (p : Path) : Fallible Path :=
  if p.name.isEmpty then
    .error (.invalid ("PosixPath(" ++ Text.quoted p.text ++ ") has an empty name"))
  else .ok (p.withName (p.name ++ ".part"))

/-- Brings what is at an address to its place. -/
def fetch (means : Means σ) (reports : DownloadReports σ) (url : Value) (p : Path) :
    Job σ Unit := do
  means.disk.ensureDirectory p.parent
  let arriving ← partialPath p
  Host.logText .info "lib.download" (return "GET " ++ (← url.shown) ++ " -> " ++ p.text)
  let response ← means.get url
  if let some e := response.failure then Run.raise e
  let total ← announced response.length
  means.disk.change fun fs => atPath arriving (fs.write arriving .empty)
  receive means reports arriving total .empty response.chunks
  if let some e := response.broken then Run.raise e
  means.disk.change fun fs =>
    (fs.replace arriving p).mapError fun problem => problem.fault [arriving.text, p.text]

/-- The place of a file of a request. -/
def place (file : Value) : Fallible Path := do
  return .ofText (← (← file.item "path").asText)

/-- The files of a request that are not verified already. -/
def missing (means : Means σ) : List Value → Job σ (List Value)
  | [] => return []
  | file :: files => do
    let p ← place file
    let verified ← checkFile means p (← file.optionalItem "checksum")
    let rest ← missing means files
    return if verified then rest else file :: rest

/-- Brings one file to its place and verifies it. -/
def bring (means : Means σ) (reports : DownloadReports σ) (file : Value) : Job σ Unit := do
  let p ← place file
  fetch means reports (← file.item "url") p
  if !(← checkFile means p (← file.optionalItem "checksum")) then
    Run.raise (.checksumMismatch ("checksum mismatch: " ++ p.name))

/-- Brings files to their places, of which `done` of `total` are there. -/
def bringFrom (means : Means σ) (reports : DownloadReports σ) (total done : Nat) :
    List Value → Job σ Unit
  | [] => return
  | file :: files => do
    bring means reports file
    reports.next (.int (done + 1)) (.int total)
    bringFrom means reports total (done + 1) files

/-- Brings the files of a request to their places. -/
def run (means : Means σ) (files : List Value) (reports : DownloadReports σ) : Job σ Unit := do
  reports.activity "preparing"
  let missing ← missing means files
  if missing.isEmpty then
    log ("All " ++ toString files.length ++ " files already cached")
  else
    reports.activity "downloading"
    bringFrom means reports missing.length 0 missing

end Download

end Reflash
