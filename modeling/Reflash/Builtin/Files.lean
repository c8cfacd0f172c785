import Reflash.Run.Table

set_option autoImplicit false

/-! # Actions on files

Downloads, files that the user has to supply, and archives. Every file has its place in the cache,
under the group that the payload names. -/

namespace Reflash.Builtin

variable {σ : Type}

/-- Adds a line to the record. -/
def log (level : Level) (message : String) : Job σ Unit :=
  Host.log level "plugins.core" message

/-- Adds a line to the record if its text can be made. -/
def logText (level : Level) (message : Fallible String) : Job σ Unit :=
  Host.logText level "plugins.core" message

/-- The name under which a file is kept: its own, or the last part of its address. -/
def downloadName (file : Value) : Fallible Value := do
  let name ← file.optionalItem "name"
  if name.truth then return name
  return .str (Path.ofText (← (← file.item "url").asText)).name

/-- An entry of a download with the place where its file is kept. -/
def downloadEntry (cache : Cache) (group file : Value) : Fallible Value := do
  match file with
  | .mapping es =>
    let name ← downloadName file
    let place := cache.path (← group.asText) (← name.asText)
    return .mapping (Entries.put (.str "path") (.str place.text) es)
  | _ => throw .mistyped

/-- The entries of a download with their places, in order. -/
def downloadEntries (cache : Cache) (group : Value) : List Value → Fallible (List Value)
  | [] => .ok []
  | file :: files =>
    match downloadEntry cache group file with
    | .error e => .error e
    | .ok entry => (downloadEntries cache group files).map (entry :: ·)

/-- How the progress of a download is shown. -/
def downloadReports (ctx : Context σ) (group : Value) : DownloadReports σ where
  progress fraction speed := do
    ctx.host.reportProgress fraction
    ctx.host.tell (.speed (← speed.roundHundredths))
    ctx.host.tell (.under "Downloading")
  next current total := do
    logText .info (return "Downloaded file " ++ (← current.shown) ++ " of " ++ (← total.shown))
    ctx.host.tell (.status
      ((← current.shown) ++ " of " ++ (← total.shown) ++ " files downloaded and verified")
      (some true))
  activity name := do
    if name = "downloading" then
      logText .info (return "Downloading " ++ (← group.shown) ++ " files")
      ctx.host.tell (.working "download")
    else if name = "preparing" then
      logText .info (return "Checking previously downloaded " ++ (← group.shown) ++ " files")
      ctx.host.tell .idle
      ctx.host.tell (.status "Preparing download" (some true))
      ctx.host.tell (.under ("Checking " ++ (← group.shown) ++ " files..."))

/-- Downloads the files of a group. Whatever goes wrong counts as a loss of the network. -/
def download : Handler σ := fun payload ctx => do
  let group ← payload.item "group"
  let listed ← (← payload.optionalItem "files").listOrEmpty
  let files ← downloadEntries ctx.cache group listed
  Run.emit (.called "downloader" "download" [.list files])
  (ctx.host.tools.download files (downloadReports ctx group)).rescue fun e => do
    if !e.isOrdinary then Run.raise e
    log .error ("Download error: " ++ e.text)
    ctx.host.tell .noNetwork
    Run.raise (.failure .networkUnavailable ("core:download " ++ e.text))
  ctx.host.tell .idle
  ctx.host.tell (.progress (.int 0))
  ctx.host.tell (.speed (.int 0))
  return .null

/-- Whether a file is there and verified. -/
def checkFile (ctx : Context σ) (target : Path) (checksum : Value) : Job σ Bool := do
  Run.emit (.called "downloader" "check_file" [.str target.text, checksum])
  ctx.host.tools.checkFile target checksum

/-- Copies the file that the user named to its place. The copy is made while the run waits, so a
cancellation can arrive with it. -/
def copyToCache (ctx : Context σ) (source : Value) (target : Path) : Job σ Unit := do
  ctx.host.tools.makeDirectories target.parent
  let source ← source.shown
  let copied ← (ctx.host.tools.copyFile source target).attempt
  ctx.host.pause
  Run.ofFallible copied

/-- Asks the user for a file unless it is there already, and accepts it only if it is verified. -/
def manualDownload : Handler σ := fun payload ctx => do
  let group ← payload.item "group"
  let file ← payload.item "file"
  let name ← file.item "name"
  let target := ctx.cache.path (← group.asText) (← name.asText)
  let checksum ← file.optionalItem "checksum"
  ctx.host.tell .idle
  ctx.host.tell (.status "Manual download")
  ctx.host.tell (.under ("Checking " ++ group.text ++ " files..."))
  if ← checkFile ctx target checksum then return .null
  ctx.host.tell (.under "Manual download required!")
  let decision ← ctx.host.ask .manualDownload
    (.ofFields [("file", file), ("group", group)]) (some "core:manual_download")
  if !decision.resumes then
    Run.raise (.aborted ("manual download of " ++ name.text ++ " declined"))
  if !decision.value.truth then
    Run.raise (.failure .generic ("no file supplied for " ++ name.text))
  copyToCache ctx decision.value target
  if !(← checkFile ctx target checksum) then
    Run.raise (.checksumMismatch "checksum mismatch")
  log .info ("Manual download of " ++ name.text ++ " verified")
  return .null

/-- Unpacks one archive of a group. -/
def unpackOne (ctx : Context σ) (base : Path) (file : Value) : Job σ Unit := do
  let archive ← (← file.item "archive").asText
  let dir ← (← file.item "dir").asText
  Run.emit (.called "unpacker" "unpack"
    [.str (base.child archive).text, .str (base.child dir).text])
  ctx.host.tools.unpack (base.child archive) (base.child dir)

/-- Unpacks archives of a group. -/
def unpack : Handler σ := fun payload ctx => do
  let group ← payload.item "group"
  let base := ctx.cache.groupDir (← group.asText)
  ctx.host.tell .idle
  ctx.host.tell (.status ("Unpacking " ++ group.text) (some true))
  ctx.host.tell (.under "Unpacking...")
  (do Run.each (unpackOne ctx base) (← (← payload.optionalItem "files").listOrEmpty)
      : Job σ Unit).rescue fun e =>
    if e.isOrdinary then Run.raise (.failure .generic ("Unpack error: " ++ e.text))
    else Run.raise e
  return .null

/-- The verbs on files. -/
def fileVerbs : Verbs σ :=
  [("download", some download), ("manual_download", some manualDownload),
    ("unpack", some unpack)]

end Reflash.Builtin
