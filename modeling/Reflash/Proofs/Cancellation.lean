import Reflash.Proofs.Exclusion
import Reflash.Proofs.HeldSteps

set_option autoImplicit false

/-! # Cancelled installations

A cancellation reaches an installation where it waits: as the end of a question, which is then a kill, or
as that of some other call. Held there (`Installer.held`), the installation shows what had happened by
then; what it still does is to tell that it has ended (`Installer.install_cancelled`). -/

namespace Reflash

open Run

variable {ε σ α β : Type}

/-! ## Questions before an installation -/

namespace Installer

variable {R : Bool → ∀ {α : Type}, Job (Hosted σ) α → Job (Hosted σ) α → Prop} {i : Installer σ}
  {host' : Host (Hosted σ)} (hR : Job.Kinship R) (hhost : Host.Kin R i.host host')
include hR hhost

theorem askPrerequisites_kin (device : Device) (os : OperatingSystem) :
    R true (i.askPrerequisites device os) ({ i with host := host' }.askPrerequisites device os) := by
  refine hR.bind (hR.ofFallible _) fun prerequisites => ?_
  split
  · exact hR.pure _
  · refine hR.bind (hR.ofFallible _) fun _ => hR.bind (hhost.ask _ _ _ _ _) fun d => ?_
    split
    · exact hR.raise _
    · exact hR.pure _

theorem askTerms_kin (os : OperatingSystem) :
    R true (i.askTerms os) ({ i with host := host' }.askTerms os) := by
  unfold askTerms
  split
  · exact hR.pure _
  · refine hR.bind (hhost.ask _ _ _ _ _) fun d => ?_
    split
    · exact hR.raise _
    · exact hR.pure _

theorem askOptions_kin (options : List Value) (settings : Settings) :
    R true (i.askOptions options settings) ({ i with host := host' }.askOptions options settings) := by
  refine hR.bind (hR.emit _ rfl) fun _ => hR.bind (hhost.ask _ _ _ _ _) fun d => ?_
  split
  · exact hR.raiseIf (hR.ofFallible _)
  · exact hR.raiseIf (hR.raise _)

variable (hcurrent : R true Session.current Session.current)
include hcurrent

theorem configure_kin (os : OperatingSystem) :
    R true (i.configure os) ({ i with host := host' }.configure os) := by
  refine hR.bind (hR.ofFallible _) fun _ => hR.bind (hR.ofFallible _) fun defaults => ?_
  refine hR.bind hcurrent fun s => hR.bind (hR.ofFallible _) fun preset => ?_
  refine hR.bind (hR.ofFallible _) fun options => ?_
  split
  · exact hR.bind (hR.emit _ rfl) fun _ => hR.bind (hR.pure _) fun _ =>
      hR.bind (hR.logText _ _ _) fun _ => hR.pure _
  · exact hR.bind (askOptions_kin hR hhost _ _) fun _ => hR.bind (hR.logText _ _ _) fun _ =>
      hR.pure _

/-- What an installation does before its first step is related if what the hosts do is. -/
theorem prepare_kin (device : Device) (os : OperatingSystem) :
    R true (i.prepare device os) ({ i with host := host' }.prepare device os) :=
  hR.bind (askPrerequisites_kin hR hhost device os) fun _ =>
    hR.bind (askTerms_kin hR hhost os) fun _ => configure_kin hR hhost hcurrent os

end Installer

/-! ## The end of an installation -/

/-- An installation is under way, and nobody has asked for its cancellation. -/
def Session.Calm (s : Session) : Prop :=
  s.active = true ∧ s.cancelRequested = false

/-- What a host does keeps what holds of every world. -/
theorem Host.keepsUnless_true (hold : Hold) (host : Host σ) :
    host.KeepsUnless hold fun _ => True where
  notify _ _ _ := trivial
  decide _ _ _ _ := .inl trivial
  pause _ _ _ := .inl trivial
  hasAccess _ _ _ _ := .inl trivial
  perform _ _ _ _ := .inl trivial
  systemImage _ _ _ _ _ _ := .inl trivial
  download _ _ _ _ _ _ _ := .inl trivial
  checkFile _ _ _ _ _ := .inl trivial
  unpack _ _ _ _ _ := .inl trivial
  makeDirectories _ _ _ _ := trivial
  copyFile _ _ _ _ _ := trivial

/-- A host whose tools do nothing keeps what is kept by questions and pauses. -/
theorem Host.answering_keepsUnless {hold : Hold} {I : σ → Prop}
    {decide : PromptRequest → Job σ Decision} {pause : Job σ Unit}
    (hdecide : ∀ request, (decide request).KeepsUnless I hold.questions)
    (hpause : pause.KeepsUnless I hold.calls) :
    { Host.answering {} with decide, pause }.KeepsUnless hold I where
  notify _ _ hw := hw
  decide := hdecide
  pause := hpause
  hasAccess _ _ _ hw := .inl hw
  perform _ _ _ hw := .inl hw
  systemImage _ h := by cases h
  download _ _ _ _ _ _ hw := .inl hw
  checkFile _ _ _ _ hw := .inl hw
  unpack _ _ _ _ hw := .inl hw
  makeDirectories _ _ _ hw := hw
  copyFile _ _ _ _ hw := hw

namespace Hold

theorem outside_calls {message : String} {e : Fault} (h : (outside message).calls e = true) :
    e = .cancelled message := by
  obtain ⟨message', rfl⟩ := Fault.eq_cancelled ((outside message).calls_cancelled e h)
  exact congrArg Fault.cancelled (eq_of_beq h)

theorem outside_not_kills (message kill : String) : ¬(outside message).Stops true (.killed kill) := by
  intro h
  cases h with
  | call h => cases h
  | question h => cases h

end Hold

/-- All that still happens is that it is said that the run did not reach its end, and shown at last. -/
def Run.Concluding (closes : ε → Prop) (last : ε) (t : Trail ε σ Bool) : Prop :=
  t.ending = .returned false ∧ ∃ lines, (∀ e ∈ lines, closes e) ∧ t.events = lines ++ [last]

theorem Run.Concluding.after_stopping {closes : ε → Prop} {last : ε} {stops : Fault → Prop}
    {t rest : Trail ε σ Bool} (h : Stopping stops closes t) (hrest : Concluding closes last rest) :
    Concluding closes last (t.goOn rest) := by
  obtain ⟨hending, lines, hlines, hevents⟩ := hrest
  refine ⟨hending, t.events ++ lines, fun e he => ?_, ?_⟩
  · rcases List.mem_append.mp he with he | he
    · exact h.2 e he
    · exact hlines e he
  · unfold Trail.goOn
    rw [hevents, List.append_assoc]

/-- Whether a question can be held, and so become a kill. -/
def Hold.Kills (hold : Hold) : Prop :=
  ∃ message, hold.Stops true (.killed message)

theorem Workflow.run_held {hold : Hold} {I : σ → Prop} {wf : Workflow σ}
    (hhost : wf.ctx.host.KeepsUnless hold I) (htable : wf.table.LetsThrough hold I wf.ctx.host)
    (steps : List Step) :
    Held I (fun t => Stopping (hold.Stops true) Signal.Closes t ∨
        hold.Kills ∧ Concluding Signal.Closes (.notified .idle) t)
      (wf.run steps).toJob ((wf.held hold).run steps).toJob := by
  have hended (e : Fault) (n : Nat) (w : σ) : wf.end_ e n w = ⟨.returned false,
      [.ended (.logged ⟨.warning, "interpreter", "Aborting run: " ++ e.text⟩),
        .ended (.notified .idle)], wf.ctx.host.notify .idle w⟩ := rfl
  have hsteps : Held I (Stopping hold.StopsSteps Event.Closes)
      (do wf.runSteps steps; return true) (do (wf.held hold).runSteps steps; return true) :=
    (runSteps_held hhost htable steps).bind fun _ => .pure true
  have hrun : Held I (fun t => Stopping (hold.Stops true) Event.Closes t ∨
      hold.Kills ∧ Concluding Event.Closes (.ended (.notified .idle)) t)
      (wf.run steps) ((wf.held hold).run steps) := by
    refine hsteps.rescue_after (fun e => ?_) fun t n c ht hc => ?_
    · split
      · exact .same fun n w hw => hhost.notify _ _ hw
      · exact .raise e
    have hkill (c : Fault) (message : String) (h : hold.Stops true (.killed message)) :
        hold.Kills ∧ Concluding Event.Closes (.ended (.notified .idle))
          (t.goOn (wf.end_ c n t.world)) := by
      refine ⟨⟨message, h⟩, .after_stopping ht ?_⟩
      rw [hended]
      refine ⟨rfl, [_], fun e he s hs => ?_, rfl⟩
      cases List.mem_singleton.mp he
      cases hs
      simp [Signal.Closes]
    cases hc with
    | same h =>
      rcases h.cases with ⟨message, rfl⟩ | ⟨message, rfl⟩
      · exact .inl (ht.goOn (.intro h (by simp)))
      · exact .inr (hkill _ message h)
    | inAction h => exact .inr (hkill _ _ h)
  refine hrun.filterEvents_after _ fun t ht => ?_
  have hcloses {es : List Event} (h : ∀ e ∈ es, e.Closes) :
      ∀ s ∈ es.filterMap Event.signal?, s.Closes := by
    intro s hs
    obtain ⟨e, he, heq⟩ := List.mem_filterMap.mp hs
    exact h e he s heq
  rcases ht with ⟨hstop, hes⟩ | ⟨hkills, hending, lines, hlines, hevents⟩
  · exact .inl ⟨hstop, hcloses hes⟩
  · refine .inr ⟨hkills, hending, _, hcloses hlines, ?_⟩
    dsimp only
    rw [hevents, List.filterMap_append]
    rfl

namespace Installer

variable {hold : Hold} {I : Hosted σ → Prop} {i : Installer σ} {device : Device}
  {os : OperatingSystem}

/-- The installer, held where calls and questions are cancelled. -/
def held (hold : Hold) (i : Installer σ) : Installer σ :=
  { i with table := i.table.held hold, host := i.host.held hold }

theorem conduct_held (hhost : i.host.KeepsUnless hold I) (htable : i.table.LetsThrough hold I i.host)
    (device : Device) (os : OperatingSystem) :
    Held I (fun t => Stopping (hold.Stops true) Signal.Closes t ∨
        hold.Kills ∧ Concluding Signal.Closes (.notified .idle) t)
      (i.conduct device os) ((i.held hold).conduct device os) := by
  have hprepare : Held I (Stopping (hold.Stops true) Signal.Closes) (i.prepare device os)
      ((i.held hold).prepare device os) :=
    prepare_kin (hold.kinship I) hhost.kin (.same fun _ _ hw => hw) device os
  have hrun (settings : Settings) :
      Held I (fun t => Stopping (hold.Stops true) Signal.Closes t ∨
          hold.Kills ∧ Concluding Signal.Closes (.notified .idle) t)
        ((i.workflow device os settings).run (os.steps ++ [endStep])).toJob
        (((i.held hold).workflow device os settings).run (os.steps ++ [endStep])).toJob :=
    Workflow.run_held hhost htable _
  rw [conduct_eq_prepare, conduct_eq_prepare]
  exact hprepare.bind_after hrun fun _ ht => .inl ht

/-- What becomes of an installation that is held, once it has ended: if its cancellation was asked for, or
if it was held at a question, that is said; else it ends by a cause by which it was held. -/
def Released (hold : Hold) (t : Trail Signal (Hosted σ) Bool) : Prop :=
  (t.world.session.cancelRequested = true → Concluding Signal.Closes (.notified .idle) t) ∧
  (t.world.session.cancelRequested = false →
    (hold.Kills ∧ Concluding Signal.Closes (.notified .idle) t) ∨
      (∃ e, hold.calls e = true ∧ t.ending = .raised e) ∧ ∀ s ∈ t.events, s.Closes)

/-- What becomes of an installation is seen in its ending, its events and its session. -/
theorem Released.of_eq {t t' : Trail Signal (Hosted σ) Bool} (h : Released hold t)
    (hending : t'.ending = t.ending) (hevents : t'.events = t.events)
    (hrequested : t'.world.session.cancelRequested = t.world.session.cancelRequested) :
    Released hold t' := by
  unfold Released Concluding at h ⊢
  rwa [hending, hevents, hrequested]

theorem stop_apply (i : Installer σ) (message : String) (n : Nat) (w : Hosted σ) :
    i.stop message n w = ⟨.returned false, [.logged ⟨.warning, "installer", message⟩,
      .notified .idle], i.host.notify .idle w⟩ := rfl

theorem stop_concluding (i : Installer σ) (message : String) (n : Nat) (w : Hosted σ) :
    Concluding Signal.Closes (.notified .idle) (i.stop message n w) := by
  rw [stop_apply]
  refine ⟨rfl, [_], fun s hs => ?_, rfl⟩
  cases List.mem_singleton.mp hs
  simp [Signal.Closes]

theorem stopped_cancelled (i : Installer σ) (message : String) (n : Nat) (w : Hosted σ) :
    i.stopped (.cancelled message) n w =
      if w.session.cancelRequested then i.stop "Installation cancelled" n w
      else ⟨.raised (.cancelled message), [], w⟩ := by
  obtain ⟨⟨config, options, active, requested, pending⟩, outside⟩ := w
  cases requested with
  | true => rfl
  | false => rfl

theorem stopped_world (i : Installer σ) (e : Fault) (n : Nat) (w : Hosted σ) :
    (i.stopped e n w).world = w ∨ (i.stopped e n w).world = i.host.notify .idle w := by
  cases e with
  | killed message => exact .inr rfl
  | aborted message => exact .inr rfl
  | cancelled message =>
    rw [stopped_cancelled]
    split
    · exact .inr rfl
    · exact .inl rfl
  | _ => exact .inl rfl

/-- A cause that is held is looked at once it leaves the steps. -/
theorem stopped_released (hnotices : ∀ notice w,
      (i.host.notify notice w).session.cancelRequested = w.session.cancelRequested)
    {t : Trail Signal (Hosted σ) Bool} {c : Fault} (ht : Stopping (hold.Stops true) Signal.Closes t)
    (hc : hold.Stops true c) (n : Nat) : Released hold (t.goOn (i.stopped c n t.world)) := by
  have hstop (message : String) :
      Concluding Signal.Closes (.notified .idle) (t.goOn (i.stop message n t.world)) :=
    .after_stopping ht (stop_concluding i message n t.world)
  rcases hc.cases with ⟨message, rfl⟩ | ⟨message, rfl⟩
  · rw [stopped_cancelled]
    cases hrequested : t.world.session.cancelRequested with
    | true =>
      have hstill : (t.goOn (i.stop "Installation cancelled" n t.world)).world.session.cancelRequested =
          true := by
        unfold Trail.goOn
        rw [stop_apply, hnotices, hrequested]
      exact ⟨fun _ => hstop _, fun h => (by cases hstill.symm.trans h)⟩
    | false =>
      refine ⟨fun h => (by cases hrequested.symm.trans h), fun _ => .inr ⟨⟨_, ?_, rfl⟩, fun s hs => ?_⟩⟩
      · cases hc with
        | call h => exact h
      · rw [Trail.goOn] at hs
        exact ht.2 s (by simpa using hs)
  · exact ⟨fun _ => hstop _, fun _ => .inl ⟨⟨message, hc⟩, hstop _⟩⟩

theorem rescued_held (hnotices : ∀ notice w,
      (i.host.notify notice w).session.cancelRequested = w.session.cancelRequested)
    (hhost : i.host.KeepsUnless hold I) (htable : i.table.LetsThrough hold I i.host)
    (device : Device) (os : OperatingSystem) :
    Held I (Released hold) ((i.conduct device os).rescue i.stopped)
      (((i.held hold).conduct device os).rescue (i.held hold).stopped) := by
  rw [rescue_eq_thereafter, rescue_eq_thereafter]
  refine (conduct_held hhost htable device os).thereafter (fun o => ?_) rfl fun t n ht => ?_
  · cases o with
    | returned a => exact .pure a
    | unfinished => exact .same fun _ _ hw => hw
    | raised e =>
      refine .same fun n w hw => ?_
      rcases stopped_world i e n w with h | h
      · rwa [h]
      · rw [h]
        exact hhost.notify _ _ hw
  · rcases ht with hstop | ⟨hkills, hending, lines, hlines, hevents⟩
    · obtain ⟨⟨c, hc, hending⟩, -⟩ := id hstop
      rw [hending]
      exact stopped_released hnotices hstop hc n
    · rw [hending]
      have hconcluding : Concluding Signal.Closes (.notified .idle)
          (t.goOn ((Pure.pure false : Job (Hosted σ) Bool) n t.world)) :=
        ⟨rfl, lines, hlines, (List.append_nil _).trans hevents⟩
      exact ⟨fun _ => hconcluding, fun _ => .inl ⟨hkills, hconcluding⟩⟩

variable {index : Value} {w : Hosted σ}

/-- An installation that is held goes as it would, or what it still does is to end. -/
theorem install_held (hidle : w.session.active = false) (hselects : w.session.Selects index device os)
    (hnotices : ∀ notice w,
      (i.host.notify notice w).session.cancelRequested = w.session.cancelRequested)
    (hhost : i.host.KeepsUnless hold I) (htable : i.table.LetsThrough hold I i.host)
    (hbegun : I w.begun) (n : Nat) :
    ((i.held hold).install index n w = i.install index n w ∧ ∃ w', I w' ∧
      (i.install index n w).world.session.cancelRequested = w'.session.cancelRequested) ∨
    ((i.held hold).install index n w).ending = .unfinished ∧
      ∃ tail, (i.install index n w).events = ((i.held hold).install index n w).events ++ tail ∧
        Released hold ⟨(i.install index n w).ending, tail, (i.install index n w).world⟩ := by
  rw [install_eq_carryOut hidle hselects, install_eq_carryOut hidle hselects, carryOut_apply,
    carryOut_apply]
  rcases rescued_held hnotices hhost htable device os n w.begun hbegun with
    ⟨hsame, hI⟩ | ⟨hheld, tail, hevents, hreleased⟩
  · refine .inl ⟨by rw [hsame], _, hI, ?_⟩
    dsimp only
    split <;> rfl
  · refine .inr ⟨hheld, tail, congrArg (firstLine device os :: ·) hevents, ?_⟩
    refine hreleased.of_eq rfl rfl ?_
    dsimp only
    split <;> rfl

/-- An installation that has ended is not under way. -/
theorem install_inactive (hidle : w.session.active = false)
    (hselects : w.session.Selects index device os) {n : Nat}
    (hended : (i.install index n w).ending ≠ .unfinished) :
    (i.install index n w).world.session.active = false := by
  rw [install_eq_carryOut hidle hselects, carryOut_apply] at hended ⊢
  dsimp only at hended ⊢
  split
  · exact absurd ‹_› hended
  · rfl

/-- If its cancellation is asked for while an installation waits for a call, and the calls let it
through, the installation ends where the cancellation arrived: no handler is called any more and nothing
is asked, the last notice is that of an idle shell, and it says that the end was not reached. If a call
that is no question is cancelled without that, the installation ends by this very cause. -/
theorem install_cancelled (hidle : w.session.active = false)
    (hselects : w.session.Selects index device os)
    (hnotices : ∀ notice w,
      (i.host.notify notice w).session.cancelRequested = w.session.cancelRequested)
    (hhost : i.host.KeepsUnless .everywhere fun w => w.session.Calm)
    (htable : i.table.LetsThrough .everywhere (fun w => w.session.Calm) i.host)
    (hraising : ∀ message, i.table.LetsThrough (.outside message) (fun _ => True) i.host) (n : Nat) :
    let t := i.install index n w
    (t.world.session.cancelRequested = true →
      t.ending = .returned false ∧ t.world.session.active = false ∧
      ((i.held .everywhere).install index n w).ending = .unfinished ∧
      ∃ lines, (∀ s ∈ lines, s.Closes) ∧ t.events =
        ((i.held .everywhere).install index n w).events ++ (lines ++ [.notified .idle])) ∧
    ∀ message, (i.held (.outside message)).install index n w ≠ t →
      t.world.session.cancelRequested = false →
        t.ending = .raised (.cancelled message) ∧ t.world.session.active = false ∧
        ((i.held (.outside message)).install index n w).ending = .unfinished ∧
        ∃ lines, (∀ s ∈ lines, s.Closes) ∧
          t.events = ((i.held (.outside message)).install index n w).events ++ lines := by
  intro t
  refine ⟨fun hrequested => ?_, fun message hdiffers hrequested => ?_⟩
  · rcases install_held hidle hselects hnotices hhost htable ⟨rfl, rfl⟩ n with
      ⟨-, w', hcalm, hsame⟩ | ⟨hheld, tail, hevents, hreleased⟩
    · rw [hcalm.2] at hsame
      cases hsame.symm.trans hrequested
    · obtain ⟨hending, lines, hlines, rfl⟩ := hreleased.1 hrequested
      have hended : t.ending ≠ .unfinished := fun h => by cases hending.symm.trans h
      exact ⟨hending, install_inactive hidle hselects hended, hheld, lines, hlines, hevents⟩
  · have hhost' := i.host.keepsUnless_true (.outside message)
    rcases install_held hidle hselects hnotices hhost' (hraising message) trivial n with
      ⟨hsame, -⟩ | ⟨hheld, lines, hevents, hreleased⟩
    · exact absurd hsame hdiffers
    · rcases hreleased.2 hrequested with ⟨⟨kill, hkill⟩, -⟩ | ⟨⟨e, he, hending⟩, hlines⟩
      · exact absurd hkill (Hold.outside_not_kills message kill)
      · obtain rfl := Hold.outside_calls he
        have hended : t.ending ≠ .unfinished := fun h => by cases hending.symm.trans h
        exact ⟨hending, install_inactive hidle hselects hended, hheld, lines, hlines, hevents⟩

/-! ## A user who cancels -/

/-- A host whose user asks for the cancellation of an installation instead of answering. -/
def cancellingHost : Host (Hosted Unit) :=
  { Host.answering {} with
    decide := fun _ => do
      Session.cancel
      Session.suspend
      return {} }

theorem cancellingHost_keepsUnless :
    cancellingHost.KeepsUnless .everywhere fun w => w.session.Calm := by
  refine Host.answering_keepsUnless (fun _ _ w hw => ?_) fun _ _ hw => .inl hw
  obtain ⟨⟨config, options, active, requested, pending⟩, outside⟩ := w
  obtain ⟨rfl, rfl⟩ : active = true ∧ requested = false := hw
  exact .inr ⟨.cancelled "", rfl, rfl⟩

/-- The user cancels at the question of an optional step: the installation ends with it. Where the pause
before a step is cancelled by itself, the installation fails by that. -/
theorem cancelled_question_ends :
    let action : Step := {
      actions := [.named "core:user_action" (.ofFields [("action", .str "boot")])], optional := true }
    let reconnect : Step := { actions := [Recovery.reconnectAction] }
    let os : OperatingSystem := ⟨[(.str "name", .str "Ubuntu Touch")], [action, reconnect]⟩
    let device : Device := ⟨[(.str "user_actions", .ofFields [("boot", .ofFields [])])], [os],
      { actions := [] }⟩
    let w : Hosted Unit := ⟨{ config := some device }, ()⟩
    let i : Installer Unit := {
      table := Builtin.table, host := cancellingHost, cacheRoot := default }
    let i' : Installer Unit := { i with
      host := { Host.answering {} with pause := Run.raise (.cancelled "gone") } }
    ((i.install (.int 0) 2 w).ending = .returned false ∧
      (i.install (.int 0) 2 w).world.session.active = false ∧
      ((i.held .everywhere).install (.int 0) 2 w).ending = .unfinished ∧
      ∃ lines, (∀ s ∈ lines, s.Closes) ∧ (i.install (.int 0) 2 w).events =
        ((i.held .everywhere).install (.int 0) 2 w).events ++ (lines ++ [.notified .idle])) ∧
    (i'.install (.int 0) 2 w).ending = .raised (.cancelled "gone") ∧
    (i'.install (.int 0) 2 w).world.session.active = false := by
  intro action reconnect os device w i i'
  have hselects : w.session.Selects (.int 0) device os :=
    ⟨rfl, ⟨0, rfl, rfl⟩, "Installing Ubuntu Touch on your None (None)", by cbv⟩
  have hlets (hold : Hold) (host : Host (Hosted Unit)) :
      (Builtin.table : ActionTable (Hosted Unit)).LetsThrough hold (fun _ => True) host :=
    Builtin.table_letsThrough (host.keepsUnless_true hold)
  have hcalm : i'.host.KeepsUnless .everywhere fun w => w.session.Calm :=
    Host.answering_keepsUnless (fun _ _ _ hw => .inl hw)
      fun _ _ _ => .inr ⟨.cancelled "gone", rfl, rfl⟩
  have hrequested : (i.install (.int 0) 2 w).world.session.cancelRequested = true := by cbv
  have hquiet : (i'.install (.int 0) 2 w).world.session.cancelRequested = false := by cbv
  have hdiffers : (i'.held (.outside "gone")).install (.int 0) 2 w ≠ i'.install (.int 0) 2 w := by
    intro h
    have hheld : ((i'.held (.outside "gone")).install (.int 0) 2 w).ending = .unfinished := by cbv
    have hraised : (i'.install (.int 0) 2 w).ending = .raised (.cancelled "gone") := by cbv
    rw [h, hraised] at hheld
    cases hheld
  have hends := (install_cancelled (i := i) rfl hselects (fun _ _ => rfl) cancellingHost_keepsUnless
    (Builtin.table_letsThrough cancellingHost_keepsUnless) (fun _ => hlets _ _) 2).1 hrequested
  have hfails := (install_cancelled (i := i') rfl hselects (fun _ _ => rfl) hcalm
    (Builtin.table_letsThrough hcalm) (fun _ => hlets _ _) 2).2 "gone" hdiffers hquiet
  exact ⟨hends, hfails.1, hfails.2.1⟩

end Installer

end Reflash
