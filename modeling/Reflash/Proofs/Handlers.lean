import Reflash.Proofs.Budget
import Reflash.Proofs.Kinship
import Reflash.Proofs.Splitting

set_option autoImplicit false

/-! # What the built-in handlers keep

A property of jobs that survives putting jobs together (`Job.Closed`) holds of all built-in handlers if
it holds of what the host does (`Builtin.handler_keeps`). Two handlers are apart: the one that waits for
a device repeats itself, and the one that ends an installation says that it is done.

Only two handlers return steps to be run (`Builtin.Returns`). -/

namespace Reflash

open Run

variable {ε σ α β : Type}

/-! ## Values -/

namespace Run

/-- Whatever the run returns has the property. -/
def Yields (r : Run ε σ α) (S : α → Prop) : Prop :=
  r.Ensures fun _ o => ∀ a, o = .returned a → S a

namespace Yields

variable {S : α → Prop} {T : β → Prop}

theorem pure {a : α} (h : S a) : (Pure.pure a : Run ε σ α).Yields S :=
  Ensures.pure fun _ ha => Ending.returned.inj ha ▸ h

theorem raise (e : Fault) : (Run.raise e : Run ε σ α).Yields S :=
  Ensures.raise fun _ ha => by cases ha

/-- Only the last run matters. -/
theorem bind {r : Run ε σ α} {next : α → Run ε σ β} (h : ∀ a, (next a).Yields T) :
    (r >>= next).Yields T := by
  refine Ensures.bind (P := fun _ _ => True) (fun _ _ => trivial) (fun es a _ n w => h a n w) ?_ ?_
  · exact fun _ _ _ _ ha => by cases ha
  · exact fun _ _ _ ha => by cases ha

theorem rescue {r : Run ε σ α} {handler : Fault → Run ε σ α} (hr : r.Yields S)
    (hh : ∀ e, (handler e).Yields S) : (r.rescue handler).Yields S := by
  refine Ensures.rescue hr (fun es a h => h) (fun es e _ n w => hh e n w) fun es _ a ha => ?_
  cases ha

theorem of_leaves {r : Run ε σ α} (hr : r.Yields S) {es : List ε} {a : α}
    (h : r.Leaves es (.returned a)) : S a := by
  obtain ⟨n, w, -, hending⟩ := h
  exact hr n w a hending

/-- A run that stops here under a condition. -/
theorem raiseIf {c : Prop} [Decidable c] {e : Fault} {next : Unit → Run ε σ α}
    (h : (next ()).Yields S) :
    (if c then Run.raise e >>= next else next () : Run ε σ α).Yields S := by
  split
  · exact bind fun _ => h
  · exact h

/-- A run that stops here under a condition, with a cause whose text may not exist. -/
theorem stopIf {γ : Type} {c : Prop} [Decidable c] {x : Run ε σ γ} {cause : γ → Fault}
    {next : Unit → Run ε σ α} (h : (next ()).Yields S) :
    (if c then x >>= fun b => Run.raise (cause b) >>= next else next () : Run ε σ α).Yields S := by
  split
  · exact bind fun _ => bind fun _ => h
  · exact h

/-- A repetition returns what its last round does. -/
theorem repeatFrom {round : β → Run ε σ (β ⊕ α)}
    (h : ∀ b, (round b).Ensures fun _ o => ∀ a, o = .returned (.inr a) → S a) (b : β) :
    (Run.repeatFrom round b).Yields S := by
  refine Ensures.repeatFrom (Q := fun _ _ o => ∀ a, o = .returned a → S a) ?_ (fun b => ?_) b
  · exact fun _ _ ha => by cases ha
  · refine (h b).mono fun es o h => ?_
    rcases o with (b' | a) | e | _
    · exact fun es' o h => h
    · exact fun a' ha' => h a' (by cases ha'; rfl)
    · exact fun _ ha => by cases ha
    · exact fun _ ha => by cases ha

end Yields

end Run

/-! ## Closed properties -/

/-- A property of jobs that jobs which are put together have if their parts have it, among them the
notices of a host. -/
structure Job.Closed (host : Host σ) (Q : ∀ {α : Type}, Job σ α → Prop) : Prop where
  emit : ∀ s : Signal, s.isDone = false → Q (Run.emit s)
  notify : ∀ notice, Q (Run.world fun w => ((), host.notify notice w))
  ofFallible : ∀ {α : Type} (x : Fallible α), Q (Run.ofFallible x)
  bind : ∀ {α β : Type} {job : Job σ α} {next : α → Job σ β}, Q job → (∀ a, Q (next a)) →
    Q (job >>= next)
  rescue : ∀ {α : Type} {job : Job σ α} {handler : Fault → Job σ α}, Q job →
    (∀ e, Q (handler e)) → Q (job.rescue handler)
  attempt : ∀ {α : Type} {job : Job σ α}, Q job → Q job.attempt

/-- What passes a download's reports on has the property. -/
structure DownloadReports.Keeps (Q : ∀ {α : Type}, Job σ α → Prop) (reports : DownloadReports σ) :
    Prop where
  progress : ∀ fraction speed, Q (reports.progress fraction speed)
  next : ∀ current total, Q (reports.next current total)
  activity : ∀ name, Q (reports.activity name)

/-- Everything that a host does has the property. -/
structure Host.Keeps (Q : ∀ {α : Type}, Job σ α → Prop) (host : Host σ) : Prop where
  decide : ∀ request, Q (host.decide request)
  pause : Q host.pause
  hasAccess : ∀ tool, Q (host.tools.hasAccess tool)
  perform : ∀ call report, (∀ v, Q (report v)) → Q (host.tools.perform call report)
  systemImage : ∀ install, host.tools.systemImage = some install → ∀ options report,
    (∀ v, Q (report v)) → Q (install options report)
  download : ∀ files reports, reports.Keeps Q → Q (host.tools.download files reports)
  checkFile : ∀ path checksum, Q (host.tools.checkFile path checksum)
  unpack : ∀ archive dir, Q (host.tools.unpack archive dir)
  makeDirectories : ∀ path, Q (host.tools.makeDirectories path)
  copyFile : ∀ source target, Q (host.tools.copyFile source target)

namespace Job.Closed

variable {host : Host σ} {Q : ∀ {α : Type}, Job σ α → Prop} (hQ : Job.Closed host Q)
include hQ

theorem pure (a : α) : Q (Pure.pure a : Job σ α) :=
  hQ.ofFallible (.ok a)

theorem raise (e : Fault) : Q (Run.raise e : Job σ α) :=
  hQ.ofFallible (.error e)

theorem each {f : α → Job σ Unit} {xs : List α} (hf : ∀ x, Q (f x)) : Q (Run.each f xs) := by
  induction xs with
  | nil => exact hQ.pure ()
  | cons x xs ih => exact hQ.bind (hf x) fun _ => ih

/-- A job that stops here under a condition. -/
theorem raiseIf {c : Prop} [Decidable c] {e : Fault} {next : Unit → Job σ α} (h : Q (next ())) :
    Q (if c then Run.raise e >>= next else next ()) := by
  split
  · exact hQ.bind (hQ.raise e) fun _ => h
  · exact h

theorem log (level : Level) (source message : String) :
    Q (Host.log level source message : Job σ Unit) :=
  hQ.emit _ rfl

theorem logText (level : Level) (source : String) (message : Fallible String) :
    Q (Host.logText level source message : Job σ Unit) := by
  cases message with
  | ok text => exact hQ.log level source text
  | error e => exact hQ.pure ()

theorem tell (notice : Notice) (h : (Signal.notified notice).isDone = false) :
    Q (host.tell notice) :=
  hQ.bind (hQ.emit _ h) fun _ => hQ.notify _

theorem announce (status under : String) (determinate : Bool) :
    Q (host.announce status under determinate) :=
  hQ.bind (hQ.tell _ rfl) fun _ => hQ.bind (hQ.tell _ rfl) fun _ => hQ.tell _ rfl

theorem reportProgress (fraction : Value) : Q (host.reportProgress fraction) := by
  unfold Host.reportProgress
  split
  · exact hQ.tell _ rfl
  · exact hQ.raise _

variable (hhost : host.Keeps Q)
include hhost

theorem ask (prompt : Prompt) (data : Value) (action : Option String) (step : Option Entries)
    (cause : Option String) : Q (host.ask prompt data action step cause) := by
  refine hQ.bind (hQ.ofFallible _) fun entries => hQ.bind (hQ.log _ _ _) fun _ => ?_
  refine hQ.bind (hQ.emit _ rfl) fun _ => hQ.bind ?_ fun decision => ?_
  · refine hQ.rescue (hhost.decide _) fun e => ?_
    split <;> exact hQ.raise _
  · exact hQ.bind (hQ.log _ _ _) fun _ => hQ.pure _

theorem perform (call : DeviceCall) : Q (host.perform call) :=
  hQ.bind (hQ.emit _ rfl) fun _ => hhost.perform _ _ hQ.reportProgress

end Job.Closed

/-! ## Two closed properties -/

/-- Not to depend on the budget is a closed property. -/
theorem Job.steady_closed {host : Host σ} :
    Job.Closed host fun {_ : Type} (job : Job σ _) => job.Steady where
  emit s _ := fun _ _ _ => .emit s
  notify _ := fun _ _ _ => .world _
  ofFallible x := fun _ _ _ => .ofFallible x
  bind hjob hnext := fun n m h => .bind (hjob n m h) fun a => hnext a n m h
  rescue hjob hhandler := fun n m h => .rescue (hjob n m h) fun e => hhandler e n m h
  attempt hjob := fun n m h => .attempt (hjob n m h)

/-- To leave only signals of which none says that the installation is complete, and maybe fewer, is a
closed property. -/
theorem Job.emits_closed {host : Host σ} {V : Signal → Prop} (hV : ∀ s, s.isDone = false → V s) :
    Job.Closed host fun {_ : Type} (job : Job σ _) => job.Emits V where
  emit s hs := .emit (hV s hs)
  notify _ := .world _
  ofFallible x := .ofFallible x
  bind hjob hnext := .bind hjob hnext
  rescue hjob hhandler := .rescue hjob hhandler
  attempt hjob := .attempt hjob

/-- Nothing that a host does depends on the budget. -/
def Host.Steady (host : Host σ) : Prop :=
  host.Keeps fun {_ : Type} (job : Job σ _) => job.Steady

/-- A host that gives one answer and whose tools do nothing keeps what jobs keep. -/
theorem Host.answering_keeps {Q : ∀ {α : Type}, Job σ α → Prop} (d : Decision)
    (hQ : Job.Closed (Host.answering d) Q) : (Host.answering d : Host σ).Keeps Q where
  decide _ := hQ.pure _
  pause := hQ.pure _
  hasAccess _ := hQ.pure _
  perform _ _ _ := hQ.pure _
  systemImage _ h := by cases h
  download _ _ _ := hQ.pure _
  checkFile _ _ := hQ.pure _
  unpack _ _ := hQ.pure _
  makeDirectories _ := hQ.pure _
  copyFile _ _ := hQ.pure _

/-! ## Handlers -/

namespace Builtin

theorem downloadReports_keeps {ctx : Context σ} {Q : ∀ {α : Type}, Job σ α → Prop}
    (hQ : Job.Closed ctx.host Q) (group : Value) : (downloadReports ctx group).Keeps Q where
  progress fraction speed :=
    hQ.bind (hQ.reportProgress _) fun _ => hQ.bind (hQ.ofFallible _) fun _ =>
      hQ.bind (hQ.tell _ rfl) fun _ => hQ.tell _ rfl
  next current total := hQ.bind (hQ.logText _ _ _) fun _ => hQ.bind (hQ.ofFallible _) fun _ =>
    hQ.bind (hQ.ofFallible _) fun _ => hQ.tell _ rfl
  activity name := by
    unfold downloadReports
    dsimp only
    split
    · exact hQ.bind (hQ.logText _ _ _) fun _ => hQ.tell _ rfl
    split
    · exact hQ.bind (hQ.logText _ _ _) fun _ => hQ.bind (hQ.tell _ rfl) fun _ =>
        hQ.bind (hQ.tell _ rfl) fun _ => hQ.bind (hQ.ofFallible _) fun _ => hQ.tell _ rfl
    · exact hQ.pure _

end Builtin

/-- A closed property is a relation in which the second job does not matter. -/
theorem Job.Closed.kinship {host : Host σ} {Q : ∀ {α : Type}, Job σ α → Prop}
    (hQ : Job.Closed host Q) : Job.Kinship fun _ {_ : Type} (job _ : Job σ _) => Q job where
  emit := hQ.emit
  ofFallible := hQ.ofFallible
  bind := hQ.bind
  rescue hjob hhandler _ := hQ.rescue hjob hhandler
  attempt_bind hjob hnext _ := hQ.bind (hQ.attempt hjob) hnext

/-- A host that keeps the property is related to itself. -/
theorem Host.Keeps.kin {host : Host σ} {Q : ∀ {α : Type}, Job σ α → Prop} (hhost : host.Keeps Q)
    (hQ : Job.Closed host Q) :
    Host.Kin (fun _ {_ : Type} (job _ : Job σ _) => Q job) host host where
  notify := hQ.notify
  ask := hQ.ask hhost
  pause := hhost.pause
  hasAccess := hhost.hasAccess
  perform _ := hhost.perform _ _ hQ.reportProgress
  noImage h := h
  systemImage install h := ⟨install, h, fun _ => hhost.systemImage install h _ _ hQ.reportProgress⟩
  download ctx h files group := by
    subst h
    exact hhost.download _ _ (Builtin.downloadReports_keeps hQ group)
  checkFile := hhost.checkFile
  unpack := hhost.unpack
  makeDirectories := hhost.makeDirectories
  copyFile source target := hQ.attempt (hhost.copyFile source target)

namespace Builtin

/-- One look for the device keeps the property; what is repeated does so only if the property says
so. -/
theorem waitRound_keeps {Q : ∀ {α : Type}, Job σ α → Prop} {ctx : Context σ}
    (hQ : Job.Closed ctx.host Q) (hhost : ctx.host.Keeps Q) (tool : DeviceTool) :
    Q (waitRound ctx tool) :=
  waitRound_kin hQ.kinship (hhost.kin hQ) tool

/-! Apart from those that return steps, the handlers return nothing. -/

section

variable (payload : Value) (ctx : Context σ)

theorem adbFormat_yields : (adbFormat payload ctx).Yields (· = .null) :=
  .bind fun _ => .bind fun _ => .bind fun _ => .bind fun _ => .pure rfl

theorem sideload_yields : (sideload payload ctx).Yields (· = .null) :=
  .bind fun _ => .bind fun _ => .bind fun _ => .bind fun _ => .bind fun _ => .bind fun _ => .pure rfl

theorem adbReboot_yields : (adbReboot payload ctx).Yields (· = .null) :=
  .bind fun _ => .bind fun _ => .bind fun _ => .bind fun _ => .pure rfl

theorem adbReconnect_yields : (adbReconnect payload ctx).Yields (· = .null) :=
  .bind fun _ => .bind fun _ => .pure rfl

theorem flash_yields : (flash payload ctx).Yields (· = .null) :=
  .bind fun _ => .bind fun _ => .bind fun _ => .bind fun _ => .bind fun _ => .pure rfl

theorem erase_yields : (erase payload ctx).Yields (· = .null) :=
  .bind fun _ => .bind fun _ => .bind fun _ => .bind fun _ => .pure rfl

theorem fastbootFormat_yields : (fastbootFormat payload ctx).Yields (· = .null) :=
  .bind fun _ => .bind fun _ => .bind fun _ => .bind fun _ => .bind fun _ =>
    .bind fun _ => .bind fun _ => .pure rfl

theorem boot_yields : (boot payload ctx).Yields (· = .null) :=
  .bind fun _ => .bind fun _ => .bind fun _ => .bind fun _ => .pure rfl

theorem update_yields : (update payload ctx).Yields (· = .null) :=
  .bind fun _ => .bind fun _ => .bind fun _ => .pure rfl

theorem setActive_yields : (setActive payload ctx).Yields (· = .null) :=
  .bind fun _ => .bind fun _ => .bind fun _ => .bind fun _ => .pure rfl

theorem oemUnlock_yields : (oemUnlock payload ctx).Yields (· = .null) :=
  .bind fun _ => .bind fun _ => .pure rfl

theorem heimdallFlash_yields : (heimdallFlash payload ctx).Yields (· = .null) :=
  .bind fun _ => .bind fun _ => .bind fun _ => .bind fun _ => .pure rfl

theorem plain_yields (status under : String) (call : DeviceCall) :
    (plain status under call payload ctx).Yields (· = .null) :=
  .bind fun _ => .bind fun _ => .pure rfl

theorem installImage_yields : (installImage payload ctx).Yields (· = .null) := by
  unfold installImage
  split
  · exact .raise _
  · refine .bind fun _ => .bind fun _ => .bind fun _ => .bind fun _ => .bind fun _ => ?_
    exact .bind fun _ => .bind fun _ => .bind fun _ => .bind fun _ => .pure rfl

theorem download_yields : (download payload ctx).Yields (· = .null) := by
  refine .bind fun _ => .bind fun _ => .bind fun _ => .bind fun _ => .bind fun _ => ?_
  exact .bind fun _ => .bind fun _ => .bind fun _ => .bind fun _ => .pure rfl

theorem manualDownload_yields : (manualDownload payload ctx).Yields (· = .null) := by
  refine .bind fun _ => .bind fun _ => .bind fun _ => .bind fun _ => .bind fun _ => ?_
  refine .bind fun _ => .bind fun _ => .bind fun _ => .bind fun _ => .bind fun there => ?_
  split
  · exact .pure rfl
  refine .bind fun _ => .bind fun decision => .raiseIf (.raiseIf (.bind fun _ => ?_))
  exact .bind fun verified => .raiseIf (.bind fun _ => .pure rfl)

theorem unpack_yields : (unpack payload ctx).Yields (· = .null) :=
  .bind fun _ => .bind fun _ => .bind fun _ => .bind fun _ => .bind fun _ => .bind fun _ =>
    .pure rfl

theorem waitRound_yields (tool : DeviceTool) :
    (waitRound ctx tool).Yields fun next => next = .inl () ∨ next = .inr .null := by
  refine .bind fun _ => .bind fun answer => ?_
  split
  · exact .pure (.inr rfl)
  · refine .bind fun decision => ?_
    split
    · exact .pure (.inl rfl)
    · exact .raise _
  · split
    · exact .raise _
    · exact .bind fun _ => .pure (.inr rfl)

theorem wait_yields (tool : DeviceTool) : (wait tool payload ctx).Yields (· = .null) := by
  refine .bind fun _ => .repeatFrom (fun _ => (waitRound_yields ctx tool).mono ?_) ()
  rintro es o h v hv
  rcases h _ hv with h | h
  · cases h
  · exact Sum.inr.inj h

end

/-! ## The table -/

theorem splitId_eq {id ns verb : String} (h : ActionTable.splitId id = (ns, verb))
    (hverb : verb ≠ "") : id = ns ++ ":" ++ verb := by
  unfold ActionTable.splitId at h
  cases hs : Text.splitFirst ':' id with
  | none =>
    rw [hs] at h
    cases h
    contradiction
  | some p =>
    rw [hs] at h
    cases h
    exact Text.splitFirst_eq_some hs

/-- The handlers of the built-in table: one that ends an installation, two that may return steps, one
that waits, and those that do something once and return nothing. -/
inductive Kind : String → Handler σ → Prop
  | finish : Kind "core:end" finish
  | group : Kind "core:group" group
  | userAction : Kind "core:user_action" userAction
  | wait (id : String) (tool : DeviceTool) : Kind id (wait tool)
  | once (id : String) {handler : Handler σ}
    (kin : ∀ {R : Bool → ∀ {α : Type}, Job σ α → Job σ α → Prop} {ctx : Context σ}
      {host' : Host σ}, Job.Kinship R → Host.Kin R ctx.host host' →
        ∀ payload, R true (handler payload ctx) (handler payload (ctx.on host')))
    (yields : ∀ payload ctx, (handler payload ctx).Yields (· = .null)) : Kind id handler

/-- Every built-in verb has a name. -/
theorem verb_ne_empty {ns verb : String} {verbs : Verbs σ} {handler : Option (Handler σ)}
    (hns : (ns, verbs) ∈ plugins) (hverb : (verb, handler) ∈ verbs) : verb ≠ "" := by
  rintro rfl
  simp only [plugins, List.mem_cons, List.not_mem_nil, Prod.mk.injEq, or_false] at hns
  rcases hns with ⟨-, rfl⟩ | ⟨-, rfl⟩ | ⟨-, rfl⟩ | ⟨-, rfl⟩ | ⟨-, rfl⟩
  all_goals
    simp [guideVerbs, fileVerbs, adbVerbs, fastbootVerbs, heimdallVerbs, imageVerbs] at hverb

theorem kind_of_mem {ns verb : String} {verbs : Verbs σ} {handler : Handler σ}
    (hns : (ns, verbs) ∈ plugins) (hverb : (verb, some handler) ∈ verbs) :
    Kind (ns ++ ":" ++ verb) handler := by
  simp only [plugins, List.mem_cons, List.not_mem_nil, Prod.mk.injEq, or_false] at hns
  rcases hns with ⟨rfl, rfl⟩ | ⟨rfl, rfl⟩ | ⟨rfl, rfl⟩ | ⟨rfl, rfl⟩ | ⟨rfl, rfl⟩
  all_goals
    simp only [guideVerbs, fileVerbs, adbVerbs, fastbootVerbs, heimdallVerbs, imageVerbs,
      List.cons_append, List.nil_append, List.mem_cons, List.not_mem_nil, Prod.mk.injEq,
      Option.some.injEq, or_false] at hverb
  · rcases hverb with ⟨rfl, rfl⟩ | ⟨rfl, rfl⟩ | ⟨rfl, rfl⟩ | ⟨rfl, rfl⟩ | ⟨rfl, rfl⟩ | ⟨rfl, rfl⟩
    · exact .finish
    · exact .group
    · exact .userAction
    · exact .once _ download_kin download_yields
    · exact .once _ manualDownload_kin manualDownload_yields
    · exact .once _ unpack_kin unpack_yields
  · rcases hverb with ⟨rfl, rfl⟩ | ⟨rfl, rfl⟩ | ⟨rfl, rfl⟩ | ⟨rfl, rfl⟩ | ⟨rfl, rfl⟩
    · exact .wait _ .adb
    · exact .once _ adbFormat_kin adbFormat_yields
    · exact .once _ sideload_kin sideload_yields
    · exact .once _ adbReboot_kin adbReboot_yields
    · exact .once _ adbReconnect_kin adbReconnect_yields
  · rcases hverb with ⟨rfl, rfl⟩ | ⟨rfl, rfl⟩ | ⟨rfl, rfl⟩ | ⟨rfl, rfl⟩ | ⟨rfl, rfl⟩ | ⟨rfl, rfl⟩ |
      ⟨rfl, rfl⟩ | ⟨rfl, rfl⟩ | ⟨rfl, rfl⟩ | ⟨rfl, rfl⟩ | ⟨rfl, rfl⟩
    · exact .wait _ .fastboot
    · exact .once _ flash_kin flash_yields
    · exact .once _ erase_kin erase_yields
    · exact .once _ fastbootFormat_kin fastbootFormat_yields
    · exact .once _ boot_kin boot_yields
    · exact .once _ update_kin update_yields
    · exact .once _ (fun hR hhost payload => plain_kin hR hhost payload _ _ _)
        fun payload ctx => plain_yields payload ctx _ _ _
    · exact .once _ (fun hR hhost payload => plain_kin hR hhost payload _ _ _)
        fun payload ctx => plain_yields payload ctx _ _ _
    · exact .once _ (fun hR hhost payload => plain_kin hR hhost payload _ _ _)
        fun payload ctx => plain_yields payload ctx _ _ _
    · exact .once _ setActive_kin setActive_yields
    · exact .once _ oemUnlock_kin oemUnlock_yields
  · rcases hverb with ⟨rfl, rfl⟩ | ⟨rfl, rfl⟩
    · exact .wait _ .heimdall
    · exact .once _ heimdallFlash_kin heimdallFlash_yields
  · obtain ⟨rfl, rfl⟩ := hverb
    exact .once _ installImage_kin installImage_yields

/-- A handler of the built-in table is of one of the kinds. -/
theorem table_kind {id : String} {handler : Handler σ} (h : table.handler? id = some handler) :
    Kind id handler := by
  unfold ActionTable.handler? at h
  rcases hs : ActionTable.splitId id with ⟨ns, verb⟩
  rw [hs] at h
  rw [Option.join_eq_some_iff, Option.bind_eq_some_iff] at h
  obtain ⟨verbs, hns, hverb⟩ := h
  obtain ⟨_, _, hplugins, -⟩ := List.lookup_eq_some_iff.mp hns
  obtain ⟨_, _, hverbs, -⟩ := List.lookup_eq_some_iff.mp hverb
  have hmem : (ns, verbs) ∈ (plugins : List (String × Verbs σ)) := by
    change (plugins : List (String × Verbs σ)) = _ at hplugins
    simp [hplugins]
  have hmem' : (verb, some handler) ∈ verbs := by simp [hverbs]
  rw [splitId_eq hs (verb_ne_empty hmem hmem')]
  exact kind_of_mem hmem hmem'

/-! ## What the built-in handlers keep and return -/

/-- What a built-in handler does with two hosts is related if what the hosts do is, but for the handlers
that wait and the one that ends an installation. -/
theorem handler_kin {R : Bool → ∀ {α : Type}, Job σ α → Job σ α → Prop} {ctx : Context σ}
    {host' : Host σ} (hR : Job.Kinship R) (hhost : Host.Kin R ctx.host host') {id : String}
    {handler : Handler σ} (h : table.handler? id = some handler) (payload : Value) :
    R true (handler payload ctx) (handler payload (ctx.on host')) ∨
      (∃ tool, handler = wait tool) ∨ (id = "core:end" ∧ handler = finish) := by
  cases table_kind h with
  | finish => exact .inr (.inr ⟨rfl, rfl⟩)
  | group => exact .inl (group_kin hR payload)
  | userAction => exact .inl (userAction_kin hR hhost payload)
  | wait _ tool => exact .inr (.inl ⟨tool, rfl⟩)
  | once _ kin => exact .inl (kin hR hhost payload)

/-- A closed property holds of every built-in handler if it holds of what the host does, but for the
handlers that wait and the one that ends an installation. -/
theorem handler_cases {Q : ∀ {α : Type}, Job σ α → Prop} {ctx : Context σ}
    (hQ : Job.Closed ctx.host Q) (hhost : ctx.host.Keeps Q) {id : String} {handler : Handler σ}
    (h : table.handler? id = some handler) (payload : Value) :
    Q (handler payload ctx) ∨ (∃ tool, handler = wait tool) ∨
      (id = "core:end" ∧ handler = finish) :=
  handler_kin hQ.kinship (hhost.kin hQ) h payload

/-- A closed property that is kept by waiting for a device as well. -/
theorem handler_keeps {Q : ∀ {α : Type}, Job σ α → Prop} {ctx : Context σ}
    (hQ : Job.Closed ctx.host Q) (hhost : ctx.host.Keeps Q)
    (waits : ∀ tool, Q (Run.repeatFrom (fun _ => waitRound ctx tool) ()))
    {id : String} {handler : Handler σ} (h : table.handler? id = some handler)
    (payload : Value) (finishes : id = "core:end" → Q (finish payload ctx)) :
    Q (handler payload ctx) := by
  rcases handler_cases hQ hhost h payload with h | ⟨tool, rfl⟩ | ⟨hid, rfl⟩
  · exact h
  · exact hQ.bind (hQ.announce _ _ _) fun _ => waits tool
  · exact finishes hid

/-- The step that waits for a device, as a document would have it. -/
def waitStep (action : String) : Value :=
  .ofFields [("actions", .list [.ofFields [(action, .null)]])]

/-- What an action of the built-in table may return: nothing, or for two of them steps. -/
inductive Returns (id : String) (payload : Value) : Value → Prop
  | nothing : Returns id payload .null
  | group (hid : id = "core:group") (items : List Value) (h : payload.items? = some items) :
    Returns id payload (.list items)
  | wait (hid : id = "core:user_action") (name : Value) (action : String)
    (h : waitFor? name = some action) : Returns id payload (.list [waitStep action])

/-- An action of the built-in table returns what it may. -/
theorem handler_returns {id : String} {handler : Handler σ}
    (h : table.handler? id = some handler) (payload : Value) (ctx : Context σ) :
    (handler payload ctx).Yields (Returns id payload) := by
  have nothing {job : Job σ Value} (h : job.Yields (· = .null)) : job.Yields (Returns id payload) :=
    h.mono fun es o h v hv => h v hv ▸ .nothing
  cases table_kind h with
  | finish =>
    exact nothing (.bind fun _ => .bind fun _ => .bind fun _ => .bind fun _ => .pure rfl)
  | group =>
    unfold group
    split
    · refine Ensures.ofFallible_bind (fun items hitems => Yields.pure (.group rfl items ?_))
        fun e _ v hv => by cases hv
      unfold Value.items at hitems
      split at hitems
      · next h =>
        cases hitems
        exact h
      · cases hitems
    · exact .pure .nothing
  | userAction =>
    refine .bind fun name => .bind fun known => .raiseIf ?_
    split
    · exact .bind fun _ => .raise _
    · refine .bind fun decision => .stopIf ?_
      split
      · exact .pure .nothing
      · next action haction => exact .pure (.wait rfl name action haction)
  | wait _ tool => exact nothing (wait_yields payload ctx tool)
  | once _ _ yields => exact nothing (yields payload ctx)

/-! ## Budgets -/

theorem finish_steady (payload : Value) (ctx : Context σ) : (finish payload ctx).Steady := by
  have telling (notice : Notice) : (ctx.host.tell notice).Steady :=
    fun _ _ _ => .bind (.emit _) fun _ => .world _
  exact fun n m h => .bind (telling _ n m h) fun _ => .bind (.ofFallible _) fun _ =>
    .bind (telling _ n m h) fun _ => .bind (telling _ n m h) fun _ => .pure _

/-- The built-in handlers do not depend on the budget if the host does not. -/
theorem handler_steady {ctx : Context σ} (hhost : ctx.host.Steady) {id : String}
    {handler : Handler σ} (h : table.handler? id = some handler) (payload : Value) :
    (handler payload ctx).Steady := by
  refine handler_keeps Job.steady_closed hhost (fun tool n m h => ?_) h payload fun _ =>
    finish_steady payload ctx
  exact .repeatFrom h (fun _ => waitRound_keeps Job.steady_closed hhost tool n m h) ()

/-- A workflow with the built-in handlers is steady if its host is. -/
theorem steady {wf : Workflow σ} (htable : wf.table = table) (hhost : wf.ctx.host.Steady) :
    wf.Steady where
  handles _ _ payload h := handler_steady hhost (htable ▸ h) payload
  pauses := hhost.pause
  decides := hhost.decide

end Builtin

end Reflash
