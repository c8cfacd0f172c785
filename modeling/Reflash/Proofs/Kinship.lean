import Reflash.Builtin.Table
import Reflash.Proofs.Ensures

set_option autoImplicit false

/-! # What the built-in handlers do with two hosts

The built-in handlers are put together of a few things: they tell the shell something, ask the user,
read their payload and call a tool. A relation of jobs that survives putting jobs together
(`Job.Kinship`) holds between what a handler does with one host and what it does with another if it
holds between what the two hosts do (`Host.Kin`).

Failures are handled in few places, and only of jobs that ask nothing. There a cancellation is let
through, so a relation may count on that. -/

namespace Reflash

open Run

variable {σ α β : Type}

/-- Whether a signal tells the shell that the installation is complete. -/
def Signal.isDone : Signal → Bool
  | .notified notice => notice.kind == .done
  | _ => false

/-- A relation in which jobs that are put together stand if their parts do. It has two grades, one for
jobs that may ask the user and one for those that do not. -/
structure Job.Kinship (R : Bool → ∀ {α : Type}, Job σ α → Job σ α → Prop) : Prop where
  emit : ∀ {asks : Bool} (s : Signal), s.isDone = false → R asks (Run.emit s) (Run.emit s)
  ofFallible : ∀ {asks : Bool} {α : Type} (x : Fallible α),
    R asks (Run.ofFallible x) (Run.ofFallible x)
  bind : ∀ {asks : Bool} {α β : Type} {job job' : Job σ α} {next next' : α → Job σ β},
    R asks job job' → (∀ a, R asks (next a) (next' a)) → R asks (job >>= next) (job' >>= next')
  rescue : ∀ {asks : Bool} {α : Type} {job job' : Job σ α} {handler handler' : Fault → Job σ α},
    R false job job' → (∀ e, R asks (handler e) (handler' e)) →
      (∀ e, e.isOrdinary = false → handler e = Run.raise e) →
        R asks (job.rescue handler) (job'.rescue handler')
  attempt_bind : ∀ {asks : Bool} {α β : Type} {job job' : Job σ α}
    {next next' : Fallible α → Job σ β}, R false job job' →
      (∀ answer, R asks (next answer) (next' answer)) →
        (∀ e, e.isOrdinary = false → next (.error e) = Run.raise e) →
          R asks (job.attempt >>= next) (job'.attempt >>= next')

/-- The same installation on another host. -/
def Context.on (ctx : Context σ) (host : Host σ) : Context σ :=
  { ctx with host }

/-- What two hosts do, as it is made use of, stands in a relation. -/
structure Host.Kin (R : Bool → ∀ {α : Type}, Job σ α → Job σ α → Prop) (host host' : Host σ) :
    Prop where
  notify : ∀ {asks : Bool} notice, R asks (Run.world fun w => ((), host.notify notice w))
    (Run.world fun w => ((), host'.notify notice w))
  ask : ∀ prompt data action step cause,
    R true (host.ask prompt data action step cause) (host'.ask prompt data action step cause)
  pause : ∀ {asks : Bool}, R asks host.pause host'.pause
  hasAccess : ∀ {asks : Bool} tool, R asks (host.tools.hasAccess tool) (host'.tools.hasAccess tool)
  perform : ∀ {asks : Bool} call, R asks (host.tools.perform call host.reportProgress)
    (host'.tools.perform call host'.reportProgress)
  noImage : host.tools.systemImage = none → host'.tools.systemImage = none
  systemImage : ∀ install, host.tools.systemImage = some install →
    ∃ install', host'.tools.systemImage = some install' ∧ ∀ {asks : Bool} options,
      R asks (install options host.reportProgress) (install' options host'.reportProgress)
  download : ∀ {asks : Bool} (ctx : Context σ), ctx.host = host → ∀ files group,
    R asks (host.tools.download files (Builtin.downloadReports ctx group))
      (host'.tools.download files (Builtin.downloadReports (ctx.on host') group))
  checkFile : ∀ {asks : Bool} path checksum,
    R asks (host.tools.checkFile path checksum) (host'.tools.checkFile path checksum)
  unpack : ∀ {asks : Bool} archive dir,
    R asks (host.tools.unpack archive dir) (host'.tools.unpack archive dir)
  makeDirectories : ∀ {asks : Bool} path,
    R asks (host.tools.makeDirectories path) (host'.tools.makeDirectories path)
  copyFile : ∀ {asks : Bool} source target, R asks (host.tools.copyFile source target).attempt
    (host'.tools.copyFile source target).attempt

namespace Job.Kinship

variable {R : Bool → ∀ {α : Type}, Job σ α → Job σ α → Prop} (hR : Job.Kinship R) {asks : Bool}
include hR

theorem pure (a : α) : R asks (Pure.pure a : Job σ α) (Pure.pure a) :=
  hR.ofFallible (.ok a)

theorem raise (e : Fault) : R asks (Run.raise e : Job σ α) (Run.raise e) :=
  hR.ofFallible (.error e)

theorem each {f f' : α → Job σ Unit} {xs : List α} (hf : ∀ x, R asks (f x) (f' x)) :
    R asks (Run.each f xs) (Run.each f' xs) := by
  induction xs with
  | nil => exact hR.pure ()
  | cons x xs ih => exact hR.bind (hf x) fun _ => ih

/-- Jobs that stop here under a condition. -/
theorem raiseIf {c : Prop} [Decidable c] {e : Fault} {next next' : Unit → Job σ α}
    (h : R asks (next ()) (next' ())) :
    R asks (if c then Run.raise e >>= next else next ())
      (if c then Run.raise e >>= next' else next' ()) := by
  split
  · exact hR.bind (hR.raise e) fun _ => h
  · exact h

/-- Jobs that stop here under a condition, with a cause whose text may not exist. -/
theorem stopIf {c : Prop} [Decidable c] {x : Fallible β} {cause : β → Fault}
    {next next' : Unit → Job σ α} (h : R asks (next ()) (next' ())) :
    R asks (if c then Run.ofFallible x >>= fun b => Run.raise (cause b) >>= next else next ())
      (if c then Run.ofFallible x >>= fun b => Run.raise (cause b) >>= next' else next' ()) := by
  split
  · exact hR.bind (hR.ofFallible _) fun _ => hR.bind (hR.raise _) fun _ => h
  · exact h

theorem log (level : Level) (source message : String) :
    R asks (Host.log level source message : Job σ Unit) (Host.log level source message) :=
  hR.emit _ rfl

theorem logText (level : Level) (source : String) (message : Fallible String) :
    R asks (Host.logText level source message : Job σ Unit)
      (Host.logText level source message) := by
  cases message with
  | ok text => exact hR.log level source text
  | error e => exact hR.pure ()

variable {host host' : Host σ} (hhost : Host.Kin R host host')
include hhost

theorem tell (notice : Notice) (h : (Signal.notified notice).isDone = false) :
    R asks (host.tell notice) (host'.tell notice) :=
  hR.bind (hR.emit _ h) fun _ => hhost.notify _

theorem announce (status under : String) (determinate : Bool) :
    R asks (host.announce status under determinate) (host'.announce status under determinate) :=
  hR.bind (hR.tell hhost _ rfl) fun _ => hR.bind (hR.tell hhost _ rfl) fun _ =>
    hR.tell hhost _ rfl

theorem perform (call : DeviceCall) : R asks (host.perform call) (host'.perform call) :=
  hR.bind (hR.emit _ (by cases call <;> rfl)) fun _ => hhost.perform call

end Job.Kinship

/-! ## Handlers -/

namespace Builtin

variable {R : Bool → ∀ {α : Type}, Job σ α → Job σ α → Prop} {asks : Bool} {ctx : Context σ}
  {host' : Host σ} (hR : Job.Kinship R) (hhost : Host.Kin R ctx.host host') (payload : Value)
include hR hhost

theorem adbFormat_kin : R asks (adbFormat payload ctx) (adbFormat payload (ctx.on host')) :=
  hR.bind (hR.ofFallible _) fun _ => hR.bind (hR.ofFallible _) fun _ =>
    hR.bind (hR.announce hhost _ _ _) fun _ => hR.bind (hR.perform hhost _) fun _ => hR.pure _

theorem sideload_kin : R asks (sideload payload ctx) (sideload payload (ctx.on host')) :=
  hR.bind (hR.ofFallible _) fun _ => hR.bind (hR.ofFallible _) fun _ =>
    hR.bind (hR.announce hhost _ _ _) fun _ => hR.bind (hR.ofFallible _) fun _ =>
      hR.bind (hR.perform hhost _) fun _ => hR.bind (hR.tell hhost _ rfl) fun _ => hR.pure _

theorem adbReboot_kin : R asks (adbReboot payload ctx) (adbReboot payload (ctx.on host')) :=
  hR.bind (hR.ofFallible _) fun _ => hR.bind (hR.ofFallible _) fun _ =>
    hR.bind (hR.announce hhost _ _ _) fun _ => hR.bind (hR.perform hhost _) fun _ => hR.pure _

theorem adbReconnect_kin :
    R asks (adbReconnect payload ctx) (adbReconnect payload (ctx.on host')) :=
  hR.bind (hR.announce hhost _ _ _) fun _ => hR.bind (hR.perform hhost _) fun _ => hR.pure _

theorem flash_kin : R asks (flash payload ctx) (flash payload (ctx.on host')) :=
  hR.bind (hR.announce hhost _ _ _) fun _ => hR.bind (hR.ofFallible _) fun _ =>
    hR.bind (hR.ofFallible _) fun _ => hR.bind (hR.perform hhost _) fun _ =>
      hR.bind (hR.tell hhost _ rfl) fun _ => hR.pure _

theorem erase_kin : R asks (erase payload ctx) (erase payload (ctx.on host')) :=
  hR.bind (hR.ofFallible _) fun _ => hR.bind (hR.ofFallible _) fun _ =>
    hR.bind (hR.announce hhost _ _ _) fun _ => hR.bind (hR.perform hhost _) fun _ => hR.pure _

theorem fastbootFormat_kin :
    R asks (fastbootFormat payload ctx) (fastbootFormat payload (ctx.on host')) :=
  hR.bind (hR.ofFallible _) fun _ => hR.bind (hR.ofFallible _) fun _ =>
    hR.bind (hR.announce hhost _ _ _) fun _ => hR.bind (hR.ofFallible _) fun _ =>
      hR.bind (hR.ofFallible _) fun _ => hR.bind (hR.ofFallible _) fun _ =>
        hR.bind (hR.perform hhost _) fun _ => hR.pure _

theorem boot_kin : R asks (boot payload ctx) (boot payload (ctx.on host')) :=
  hR.bind (hR.announce hhost _ _ _) fun _ => hR.bind (hR.ofFallible _) fun _ =>
    hR.bind (hR.ofFallible _) fun _ => hR.bind (hR.perform hhost _) fun _ => hR.pure _

theorem update_kin : R asks (update payload ctx) (update payload (ctx.on host')) :=
  hR.bind (hR.announce hhost _ _ _) fun _ => hR.bind (hR.ofFallible _) fun _ =>
    hR.bind (hR.perform hhost _) fun _ => hR.pure _

theorem plain_kin (status under : String) (call : DeviceCall) :
    R asks (plain status under call payload ctx) (plain status under call payload (ctx.on host')) :=
  hR.bind (hR.announce hhost _ _ _) fun _ => hR.bind (hR.perform hhost _) fun _ => hR.pure _

theorem setActive_kin : R asks (setActive payload ctx) (setActive payload (ctx.on host')) :=
  hR.bind (hR.ofFallible _) fun _ => hR.bind (hR.ofFallible _) fun _ =>
    hR.bind (hR.announce hhost _ _ _) fun _ => hR.bind (hR.perform hhost _) fun _ => hR.pure _

theorem oemUnlock_kin : R asks (oemUnlock payload ctx) (oemUnlock payload (ctx.on host')) :=
  hR.bind (hR.announce hhost _ _ _) fun _ => hR.bind (hR.perform hhost _) fun _ => hR.pure _

theorem heimdallFlash_kin :
    R asks (heimdallFlash payload ctx) (heimdallFlash payload (ctx.on host')) :=
  hR.bind (hR.announce hhost _ _ _) fun _ => hR.bind (hR.ofFallible _) fun _ =>
    hR.bind (hR.ofFallible _) fun _ => hR.bind (hR.perform hhost _) fun _ => hR.pure _

theorem installImage_kin :
    R asks (installImage payload ctx) (installImage payload (ctx.on host')) := by
  have telling (notice : Notice) (h : (Signal.notified notice).isDone = false) :
      R asks (ctx.host.tell notice) (host'.tell notice) := hR.tell hhost notice h
  unfold installImage Context.on
  dsimp only
  cases himage : ctx.host.tools.systemImage with
  | none =>
    rw [hhost.noImage himage]
    exact hR.raise _
  | some install =>
    obtain ⟨install', himage', hinstall⟩ := hhost.systemImage install himage
    rw [himage']
    refine hR.bind (telling _ rfl) fun _ => hR.bind (telling _ rfl) fun _ => ?_
    refine hR.bind (hR.ofFallible _) fun _ => hR.bind (telling _ rfl) fun _ => ?_
    refine hR.bind (telling _ rfl) fun _ => hR.bind (hR.ofFallible _) fun options => ?_
    refine hR.bind (hR.emit _ rfl) fun _ => hR.bind (hinstall _) fun _ => ?_
    exact hR.bind (telling _ rfl) fun _ => hR.pure _

theorem download_kin : R asks (download payload ctx) (download payload (ctx.on host')) := by
  refine hR.bind (hR.ofFallible _) fun group => hR.bind (hR.ofFallible _) fun _ => ?_
  refine hR.bind (hR.ofFallible _) fun _ => hR.bind (hR.ofFallible _) fun files => ?_
  refine hR.bind (hR.emit _ rfl) fun _ => hR.bind (hR.rescue ?_ (fun e => ?_) fun e he => ?_) fun _ => ?_
  · exact hhost.download ctx rfl _ _
  · exact hR.raiseIf (hR.bind (hR.log _ _ _) fun _ => hR.bind (hR.tell hhost _ rfl) fun _ =>
      hR.raise _)
  · rw [he]
    rfl
  · exact hR.bind (hR.tell hhost _ rfl) fun _ => hR.bind (hR.tell hhost _ rfl) fun _ =>
      hR.bind (hR.tell hhost _ rfl) fun _ => hR.pure _

theorem checkFile_kin (target : Path) (checksum : Value) :
    R asks (checkFile ctx target checksum) (checkFile (ctx.on host') target checksum) :=
  hR.bind (hR.emit _ rfl) fun _ => hhost.checkFile _ _

theorem copyToCache_kin (source : Value) (target : Path) :
    R asks (copyToCache ctx source target) (copyToCache (ctx.on host') source target) :=
  hR.bind (hhost.makeDirectories _) fun _ => hR.bind (hR.ofFallible _) fun _ =>
    hR.bind (hhost.copyFile _ _) fun _ => hR.bind hhost.pause fun _ => hR.ofFallible _

theorem manualDownload_kin :
    R true (manualDownload payload ctx) (manualDownload payload (ctx.on host')) := by
  refine hR.bind (hR.ofFallible _) fun group => hR.bind (hR.ofFallible _) fun file => ?_
  refine hR.bind (hR.ofFallible _) fun name => hR.bind (hR.ofFallible _) fun _ => ?_
  refine hR.bind (hR.ofFallible _) fun _ => hR.bind (hR.ofFallible _) fun checksum => ?_
  refine hR.bind (hR.tell hhost _ rfl) fun _ => hR.bind (hR.tell hhost _ rfl) fun _ => ?_
  refine hR.bind (hR.tell hhost _ rfl) fun _ =>
    hR.bind (checkFile_kin hR hhost _ _) fun there => ?_
  split
  · exact hR.pure _
  refine hR.bind (hR.tell hhost _ rfl) fun _ => hR.bind (hhost.ask _ _ _ _ _) fun decision => ?_
  refine hR.raiseIf (hR.raiseIf (hR.bind (copyToCache_kin hR hhost _ _) fun _ => ?_))
  refine hR.bind (checkFile_kin hR hhost _ _) fun verified => hR.raiseIf ?_
  exact hR.bind (hR.log _ _ _) fun _ => hR.pure _

theorem unpack_kin : R asks (unpack payload ctx) (unpack payload (ctx.on host')) := by
  refine hR.bind (hR.ofFallible _) fun group => hR.bind (hR.ofFallible _) fun _ => ?_
  refine hR.bind (hR.tell hhost _ rfl) fun _ => hR.bind (hR.tell hhost _ rfl) fun _ => ?_
  refine hR.bind (hR.tell hhost _ rfl) fun _ =>
    hR.bind (hR.rescue ?_ (fun e => ?_) fun e he => ?_) fun _ => hR.pure _
  · refine hR.bind (hR.ofFallible _) fun _ => hR.bind (hR.ofFallible _) fun files => ?_
    refine hR.each fun file => hR.bind (hR.ofFallible _) fun _ => ?_
    refine hR.bind (hR.ofFallible _) fun archive => hR.bind (hR.ofFallible _) fun _ => ?_
    exact hR.bind (hR.ofFallible _) fun dir => hR.bind (hR.emit _ rfl) fun _ => hhost.unpack _ _
  · split <;> exact hR.raise _
  · rw [he]
    rfl

theorem userAction_kin : R true (userAction payload ctx) (userAction payload (ctx.on host')) := by
  refine hR.bind (hR.ofFallible _) fun name => hR.bind (hR.ofFallible _) fun known => hR.raiseIf ?_
  split
  · exact hR.bind (hR.ofFallible _) fun _ => hR.raise _
  · refine hR.bind (hhost.ask _ _ _ _ _) fun decision => hR.stopIf ?_
    split <;> exact hR.pure _

omit hhost in
theorem group_kin : R asks (group payload ctx) (group payload (ctx.on host')) := by
  unfold group
  split
  · exact hR.bind (hR.ofFallible _) fun _ => hR.pure _
  · exact hR.pure _

omit payload in
/-- One look for the device keeps the relation; what is repeated does so only if the relation says
so. -/
theorem waitRound_kin (tool : DeviceTool) :
    R true (waitRound ctx tool) (waitRound (ctx.on host') tool) := by
  refine hR.bind (hR.emit _ rfl) fun _ =>
    hR.attempt_bind (hhost.hasAccess _) (fun answer => ?_) fun e he => ?_
  · split
    · exact hR.pure _
    · refine hR.bind (hhost.ask _ _ _ _ _) fun decision => ?_
      split
      · exact hR.pure _
      · exact hR.raise _
    · split
      · exact hR.raise _
      · exact hR.bind (hR.log _ _ _) fun _ => hR.pure _
  · dsimp only
    rw [he]
    rfl

end Builtin

end Reflash
