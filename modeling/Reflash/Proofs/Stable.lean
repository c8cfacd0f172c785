import Reflash.Proofs.Configure
import Reflash.Proofs.Handlers

set_option autoImplicit false

/-! # What installations keep

All that an installation does in its session is put together of what its host and its handlers do, of
notices, and of looking at the session. A property of runs that survives putting runs together
(`Session.Stable`) holds of the whole installation if it holds of host and handlers
(`Session.Stable.conduct`). The session is looked at for its options and for whether a cancellation
was asked for, and never for the device: that is known from the start. -/

namespace Reflash

open Run

variable {ε ε' σ α β : Type}

/-- A property of runs in a session that runs which are put together have if their parts have it, among
them the notices of a host. What is done with the state of the session may not depend on the chosen
device. -/
structure Session.Stable (host : Host (Hosted σ))
    (Q : ∀ {ε α : Type}, Run ε (Hosted σ) α → Prop) : Prop where
  ofFallible : ∀ {ε α : Type} (x : Fallible α), Q (Run.ofFallible x : Run ε (Hosted σ) α)
  unfinished : ∀ {ε α : Type}, Q (Run.unfinished : Run ε (Hosted σ) α)
  emit : ∀ {ε : Type} (e : ε), Q (Run.emit e : Run ε (Hosted σ) Unit)
  notify : ∀ notice, Q (Run.world fun w => ((), host.notify notice w) : Job (Hosted σ) Unit)
  thereafter : ∀ {ε α β : Type} {r : Run ε (Hosted σ) α} {next : Ending α → Run ε (Hosted σ) β},
    Q r → (∀ o, Q (next o)) → next .unfinished = Run.unfinished → Q (r.thereafter next)
  filterEvents : ∀ {ε ε' α : Type} {r : Run ε (Hosted σ) α} (f : ε → Option ε'), Q r →
    Q (r.filterEvents f)
  withBudget : ∀ {ε α : Type} {f : Nat → Run ε (Hosted σ) α}, (∀ n, Q (f n)) →
    Q (Run.withBudget f)
  current : ∀ {α : Type} {next : Session → Job (Hosted σ) α}, (∀ s, Q (next s)) →
    (∀ s config, next { s with config } = next s) → Q (Session.current >>= next)

namespace Session.Stable

variable {host : Host (Hosted σ)} {Q : ∀ {ε α : Type}, Run ε (Hosted σ) α → Prop}
  (hQ : Session.Stable host Q)
include hQ

theorem pure (a : α) : Q (Pure.pure a : Run ε (Hosted σ) α) :=
  hQ.ofFallible (.ok a)

theorem raise (e : Fault) : Q (Run.raise e : Run ε (Hosted σ) α) :=
  hQ.ofFallible (.error e)

theorem bind {r : Run ε (Hosted σ) α} {next : α → Run ε (Hosted σ) β} (hr : Q r)
    (hnext : ∀ a, Q (next a)) : Q (r >>= next) := by
  rw [bind_eq_thereafter]
  refine hQ.thereafter hr (fun o => ?_) rfl
  cases o with
  | returned a => exact hnext a
  | raised e => exact hQ.raise e
  | unfinished => exact hQ.unfinished

theorem rescue {r : Run ε (Hosted σ) α} {handler : Fault → Run ε (Hosted σ) α} (hr : Q r)
    (hhandler : ∀ e, Q (handler e)) : Q (r.rescue handler) := by
  rw [rescue_eq_thereafter]
  refine hQ.thereafter hr (fun o => ?_) rfl
  cases o with
  | returned a => exact hQ.pure a
  | raised e => exact hhandler e
  | unfinished => exact hQ.unfinished

theorem attempt {r : Run ε (Hosted σ) α} (hr : Q r) : Q r.attempt := by
  rw [attempt_eq_thereafter]
  refine hQ.thereafter hr (fun o => ?_) rfl
  cases o with
  | returned a => exact hQ.pure _
  | raised e => exact hQ.pure _
  | unfinished => exact hQ.unfinished

theorem mapEvents {r : Run ε (Hosted σ) α} (f : ε → ε') (hr : Q r) : Q (r.mapEvents f) := by
  have h : r.mapEvents f = r.filterEvents fun e => some (f e) := by
    funext n w
    exact congrArg (Trail.mk _ · _) (congrFun List.filterMap_eq_map.symm _)
  rw [h]
  exact hQ.filterEvents _ hr

theorem repeatFrom {round : β → Run ε (Hosted σ) (β ⊕ α)} (hround : ∀ b, Q (round b)) (b : β) :
    Q (Run.repeatFrom round b) := by
  refine hQ.withBudget fun n => ?_
  induction n generalizing b with
  | zero => exact hQ.unfinished
  | succ n ih =>
    refine hQ.bind (hround b) fun next => ?_
    cases next with
    | inl b => exact ih b
    | inr a => exact hQ.pure a

theorem each {f : α → Run ε (Hosted σ) Unit} {xs : List α} (hf : ∀ x ∈ xs, Q (f x)) :
    Q (Run.each f xs) := by
  induction xs with
  | nil => exact hQ.pure ()
  | cons x xs ih => exact hQ.bind (hf x (by simp)) fun _ => ih fun y hy => hf y (by simp [hy])

/-- Jobs keep the property. -/
theorem job : Job.Closed host fun {_ : Type} (job : Job (Hosted σ) _) => Q job where
  emit s _ := hQ.emit s
  notify := hQ.notify
  ofFallible := hQ.ofFallible
  bind := hQ.bind
  rescue := hQ.rescue
  attempt := hQ.attempt

/-- Flows keep the property. -/
theorem flow : Flow.Congruence fun {_ : Type} (flow _ : Flow (Hosted σ) _) => Q flow where
  pure := hQ.pure
  raise := hQ.raise
  unfinished := hQ.unfinished
  emit := hQ.emit
  bind := hQ.bind
  rescue := hQ.rescue
  attempt := hQ.attempt
  inside _ h := hQ.mapEvents _ h
  repeatFrom h b := hQ.repeatFrom h b

end Session.Stable

/-! ## Installations -/

/-- The handlers of a table have a property, wherever they are called with the host. -/
def ActionTable.Keeps (Q : ∀ {ε α : Type}, Run ε (Hosted σ) α → Prop) (host : Host (Hosted σ))
    (table : ActionTable (Hosted σ)) : Prop :=
  ∀ id handler, table.handler? id = some handler →
    ∀ payload (ctx : Context (Hosted σ)), ctx.host = host → Q (handler payload ctx)

section

variable {Q : ∀ {ε α : Type}, Run ε (Hosted σ) α → Prop} {i : Installer σ}
  (hQ : Session.Stable i.host Q) (hhost : i.host.Keeps fun {_ : Type} (job : Job (Hosted σ) _) => Q job)

namespace Session.Stable

include hQ

theorem stop (message : String) : Q (i.stop message) :=
  hQ.bind (hQ.emit _) fun _ => hQ.bind (hQ.job.tell _ rfl) fun _ => hQ.pure _

theorem stopped (cause : Fault) : Q (i.stopped cause) := by
  unfold Installer.stopped
  split
  · exact hQ.stop _
  · exact hQ.stop _
  · refine hQ.current (fun s => ?_) fun _ _ => rfl
    split
    · exact hQ.stop _
    · exact hQ.raise _
  · exact hQ.raise _

include hhost

theorem askPrerequisites (device : Device) (os : OperatingSystem) :
    Q (i.askPrerequisites device os) := by
  refine hQ.bind (hQ.ofFallible _) fun prerequisites => ?_
  split
  · exact hQ.pure _
  · refine hQ.bind (hQ.ofFallible _) fun _ => hQ.bind (hQ.job.ask hhost _ _ _ _ _) fun d => ?_
    split
    · exact hQ.raise _
    · exact hQ.pure _

theorem askTerms (os : OperatingSystem) : Q (i.askTerms os) := by
  unfold Installer.askTerms
  split
  · exact hQ.pure _
  · refine hQ.bind (hQ.job.ask hhost _ _ _ _ _) fun d => ?_
    split
    · exact hQ.raise _
    · exact hQ.pure _

theorem askOptions (options : List Value) (settings : Settings) :
    Q (i.askOptions options settings) := by
  refine hQ.bind (hQ.emit _) fun _ => hQ.bind (hQ.job.ask hhost _ _ _ _ _) fun d => ?_
  split
  · exact hQ.job.raiseIf (hQ.ofFallible _)
  · exact hQ.job.raiseIf (hQ.raise _)

theorem configure (os : OperatingSystem) : Q (i.configure os) := by
  refine hQ.bind (hQ.ofFallible _) fun _ => hQ.bind (hQ.ofFallible _) fun defaults => ?_
  refine hQ.current (fun s => hQ.bind (hQ.ofFallible _) fun preset => ?_) fun _ _ => rfl
  refine hQ.bind (hQ.ofFallible _) fun options => ?_
  have settled (settings : Settings) : Q (do
      Host.logText .info "installer"
        ((Value.mapping settings.freeze.data).exact.map fun text => "Settings: " ++ text)
      return settings.freeze : Job (Hosted σ) Settings) :=
    hQ.bind (hQ.job.logText _ _ _) fun _ => hQ.pure _
  split
  · exact hQ.bind (hQ.emit _) fun _ => hQ.bind (hQ.pure _) fun settings => settled settings
  · exact hQ.bind (hQ.askOptions hhost _ _) fun settings => settled settings

variable (hhandles : i.table.Keeps Q i.host)
include hhandles

/-- The steps of an installation keep the property. -/
theorem run (device : Device) (os : OperatingSystem) (settings : Settings) (steps : List Step) :
    Q ((i.workflow device os settings).run steps).toJob := by
  have hwf : (i.workflow device os settings).Respects
      fun {_ : Type} (flow _ : Flow (Hosted σ) _) => Q flow :=
    { handles := fun id handler payload h =>
        hQ.mapEvents _ (hhandles id handler h payload _ rfl)
      pauses := hQ.mapEvents _ hhost.pause
      asks := fun _ _ _ _ _ => hQ.mapEvents _ (hQ.job.ask hhost _ _ _ _ _) }
  have hsteps : Q ((i.workflow device os settings).runSteps steps) :=
    hQ.withBudget fun depth => hwf.runStepsTo hQ.flow depth steps
  refine hQ.filterEvents _ (hQ.rescue (hQ.bind hsteps fun _ => hQ.pure _) fun e => ?_)
  split
  · exact hQ.mapEvents _ (hQ.bind (hQ.emit _) fun _ => hQ.bind (hQ.job.tell _ rfl) fun _ =>
      hQ.pure _)
  · exact hQ.raise _

/-- What an installation does once it is under way keeps the property. -/
theorem conduct (device : Device) (os : OperatingSystem) : Q (i.conduct device os) :=
  hQ.bind (hQ.askPrerequisites hhost device os) fun _ => hQ.bind (hQ.askTerms hhost os) fun _ =>
    hQ.bind (hQ.configure hhost os) fun settings =>
      hQ.run hhost hhandles device os settings _

end Session.Stable

end

end Reflash
