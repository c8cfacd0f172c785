import Reflash.Proofs.Configure
import Reflash.Proofs.Insertion

set_option autoImplicit false

/-! # The stages of an installation

An installation puts questions, lets the shell answer them and runs steps, and all three leave
signals. To tell them apart, the installation is written once more with stages, which say whose
doing a signal is (`Installer.staged`). Without that knowledge it is the installation as it is
(`Installer.erase_staged`). -/

namespace Reflash

open Run

variable {σ α β : Type}

/-! ## Stages -/

/-- What happens in an installation, by whose doing it is. -/
inductive Stage where
  /-- The session did something. -/
  | session (signal : Signal)
  /-- The user is asked. -/
  | asked (request : PromptRequest)
  /-- The shell did something while the user was asked. -/
  | shell (signal : Signal)
  /-- The user answered. -/
  | answered (prompt : Prompt) (decision : Decision)
  /-- There was no answer. -/
  | unanswered (prompt : Prompt) (cause : Fault)
  /-- Something happened while the steps were run. -/
  | worked (event : Event)

/-- The signal that a stage is to the outside. -/
def Stage.signal? : Stage → Option Signal
  | session s | shell s => some s
  | asked q => some (.prompted q)
  | answered .. | unanswered .. => none
  | worked e => e.signal?

/-- A run of an installation with its stages. -/
abbrev Staged (σ α : Type) := Run Stage σ α

namespace Staged

/-- The run as the outside sees it. -/
def erase (r : Staged σ α) : Job σ α :=
  r.filterEvents Stage.signal?

/-- A run of the session as part of an installation. -/
def ofSession (job : Job σ α) : Staged σ α :=
  job.mapEvents .session

theorem erase_bind (r : Staged σ α) (next : α → Staged σ β) :
    (r >>= next).erase = r.erase >>= fun a => (next a).erase :=
  filterEvents_bind _ r next

theorem erase_rescue (r : Staged σ α) (handler : Fault → Staged σ α) :
    erase (r.rescue handler) = r.erase.rescue fun e => (handler e).erase :=
  filterEvents_rescue _ r handler

theorem erase_attempt (r : Staged σ α) : erase r.attempt = r.erase.attempt := by
  funext n w
  unfold erase
  rw [filterEvents_apply]
  unfold Run.attempt
  rw [filterEvents_apply]
  rcases r n w with ⟨_ | _ | _, es, w'⟩ <;> rfl

theorem erase_pure (a : α) : (Pure.pure a : Staged σ α).erase = Pure.pure a := rfl

theorem erase_liftM (x : Fallible α) : (liftM x : Staged σ α).erase = (liftM x : Job σ α) := by
  cases x <;> rfl

theorem erase_ofFallible (x : Fallible α) :
    erase (Run.ofFallible x : Staged σ α) = Run.ofFallible x := by
  cases x <;> rfl

theorem erase_mapEvents (job : Job σ α) {f : Signal → Stage} (hf : ∀ s, (f s).signal? = some s) :
    erase (job.mapEvents f) = job := by
  unfold erase
  rw [filterEvents_mapEvents, funext hf]
  funext n w
  rw [filterEvents_apply, List.filterMap_some]

theorem erase_ofSession (job : Job σ α) : (ofSession job).erase = job :=
  erase_mapEvents job fun _ => rfl

theorem erase_ite (c : Prop) [Decidable c] (r r' : Staged σ α) :
    (if c then r else r').erase = if c then r.erase else r'.erase :=
  apply_ite erase c r r'

end Staged

/-- Asks the user. -/
def Host.askStaged (host : Host σ) (prompt : Prompt) (data : Value) : Staged σ Decision := do
  let data ← Run.ofFallible (if data.truth then data.asMapping else .ok [])
  let request : PromptRequest := { prompt, data }
  Staged.ofSession (Host.log .debug "events" ("Waiting for user decision: " ++ prompt.text))
  Run.emit (.asked request)
  let decision ← ((host.decide request).mapEvents .shell).rescue fun e => do
    Run.emit (.unanswered prompt e)
    match e with
    | .cancelled _ => Run.raise (.killed (prompt.text ++ " prompt cancelled"))
    | e => Run.raise e
  Run.emit (.answered prompt decision)
  Staged.ofSession (Host.log .debug "events"
    ("User decided " ++ decision.choice.text ++ " on " ++ prompt.text))
  return decision

theorem Host.erase_askStaged (host : Host σ) (prompt : Prompt) (data : Value) :
    (host.askStaged prompt data).erase = host.ask prompt data := by
  have hasked (request : PromptRequest) :
      Staged.erase (Run.emit (.asked request) : Staged σ Unit) = Run.emit (.prompted request) := rfl
  have hanswered (d : Decision) :
      Staged.erase (Run.emit (.answered prompt d) : Staged σ Unit) = Pure.pure () := rfl
  have hunanswered (e : Fault) :
      Staged.erase (Run.emit (.unanswered prompt e) : Staged σ Unit) = Pure.pure () := rfl
  have hshell (s : Signal) : (Stage.shell s).signal? = some s := rfl
  unfold Host.askStaged Host.ask
  simp only [Staged.erase_bind, Staged.erase_ofSession, Staged.erase_rescue, Staged.erase_pure,
    Staged.erase_mapEvents _ hshell, Staged.erase_ofFallible, hasked, hanswered, hunanswered,
    pure_bind]
  refine bind_congr fun data => bind_congr fun _ => bind_congr fun _ => congrArg (· >>= _) ?_
  refine congrArg (Run.rescue _) (funext fun e => ?_)
  cases e <;> rfl

/-! ## Staged installations -/

namespace Installer

/-- Asks a question that has to be answered so that the installation can go on. -/
def consult (i : Installer σ) (prompt : Prompt) (data : Value) (refusal : String) :
    Staged (Hosted σ) Decision := do
  let decision ← i.host.askStaged prompt data
  if !decision.resumes then Run.raise (.aborted refusal)
  return decision

/-- Asks whether the prerequisites are met. -/
def consultPrerequisites (i : Installer σ) (device : Device) (os : OperatingSystem) :
    Staged (Hosted σ) Unit := do
  let prerequisites ← os.prerequisites
  if prerequisites.isEmpty then return
  let data := .ofFields [("prerequisites", .list prerequisites),
    ("user_actions", .mapping (← device.userActions))]
  discard (i.consult .prerequisites data "prerequisites not met")

/-- Asks whether the terms are accepted. -/
def consultTerms (i : Installer σ) (os : OperatingSystem) : Staged (Hosted σ) Unit := do
  if !os.eula.truth then return
  discard (i.consult .eula (.ofFields [("eula", os.eula)]) "EULA declined")

/-- Asks how to set the options. -/
def consultOptions (i : Installer σ) (options : List Value) (settings : Settings) :
    Staged (Hosted σ) Settings := do
  Staged.ofSession (Session.log .info "Configuring...")
  let data := .ofFields [("options", .list options), ("values", .mapping settings.data)]
  let decision ← i.consult .configure data "configuration cancelled"
  match decision.value.orElse (.mapping []) with
  | .mapping decided => settings.update decided
  | _ => Run.raise .mistyped

/-- The settings of an installation. -/
def consultSettings (i : Installer σ) (os : OperatingSystem) : Staged (Hosted σ) Settings := do
  let defaults ← Settings.update {} (← os.optionDefaults)
  let preset ← defaults.update (← Staged.ofSession Session.current).options
  let options ← os.options
  let settings ←
    if options.isEmpty then
      Staged.ofSession (Session.log .debug "Nothing to configure")
      pure preset
    else i.consultOptions options preset
  let settings := settings.freeze
  Staged.ofSession (Host.logText .info "installer"
    ((Value.mapping settings.data).exact.map fun text => "Settings: " ++ text))
  return settings

/-- Puts the questions and runs the steps. -/
def conductStaged (i : Installer σ) (device : Device) (os : OperatingSystem) :
    Staged (Hosted σ) Bool := do
  i.consultPrerequisites device os
  i.consultTerms os
  let settings ← i.consultSettings os
  ((i.workflow device os settings).run (os.steps ++ [endStep])).mapEvents .worked

/-- Carries out an installation once it is known of what. -/
def staged (i : Installer σ) (device : Device) (os : OperatingSystem) : Staged (Hosted σ) Bool := do
  Staged.ofSession (Session.log .info ("Installing " ++ os.name ++ " on your " ++ device.name ++
    " (" ++ device.codename ++ ")"))
  Staged.ofSession (Session.modify fun s => { s with active := true, cancelRequested := false })
  let result ← ((i.conductStaged device os).rescue fun e => Staged.ofSession (i.stopped e)).attempt
  Staged.ofSession (Session.modify fun s => { s with active := false })
  Run.ofFallible result

variable (i : Installer σ) (device : Device) (os : OperatingSystem)

theorem erase_consult (prompt : Prompt) (data : Value) (refusal : String) :
    (i.consult prompt data refusal).erase = do
      let decision ← i.host.ask prompt data
      if !decision.resumes then Run.raise (.aborted refusal)
      return decision := by
  unfold consult
  rw [Staged.erase_bind, Host.erase_askStaged]
  refine bind_congr fun decision => ?_
  split <;> rfl

theorem erase_discard_consult (prompt : Prompt) (data : Value) (refusal : String) :
    (discard (i.consult prompt data refusal) : Staged (Hosted σ) Unit).erase =
      i.host.ask prompt data >>= fun decision =>
        if !decision.resumes then Run.raise (.aborted refusal) else Pure.pure () := by
  have hdiscard : (discard (i.consult prompt data refusal) : Staged (Hosted σ) Unit) =
      i.consult prompt data refusal >>= fun _ => Pure.pure () := rfl
  rw [hdiscard, Staged.erase_bind, erase_consult]
  simp only [bind_assoc]
  refine bind_congr fun decision => ?_
  split <;> rfl

theorem erase_consultPrerequisites :
    (i.consultPrerequisites device os).erase = i.askPrerequisites device os := by
  unfold consultPrerequisites askPrerequisites
  simp only [Staged.erase_bind, Staged.erase_liftM, Staged.erase_ite, erase_discard_consult]
  rfl

theorem erase_consultTerms : (i.consultTerms os).erase = i.askTerms os := by
  unfold consultTerms askTerms
  simp only [Staged.erase_ite, erase_discard_consult]
  rfl

theorem erase_consultOptions (options : List Value) (settings : Settings) :
    (i.consultOptions options settings).erase = i.askOptions options settings := by
  unfold consultOptions askOptions
  simp only [Staged.erase_bind, Staged.erase_ofSession, erase_consult, bind_assoc]
  refine bind_congr fun _ => bind_congr fun decision => ?_
  split
  · rfl
  · rw [pure_bind]
    cases decision.value.orElse (.mapping []) <;> first | exact Staged.erase_liftM _ | rfl

theorem erase_consultSettings : (i.consultSettings os).erase = i.configure os := by
  unfold consultSettings configure
  simp only [Staged.erase_bind, Staged.erase_liftM, Staged.erase_ofSession, Staged.erase_ite,
    erase_consultOptions, Staged.erase_pure]

theorem erase_conductStaged : (i.conductStaged device os).erase = i.conduct device os := by
  unfold conductStaged conduct
  simp only [Staged.erase_bind, erase_consultPrerequisites, erase_consultTerms,
    erase_consultSettings]
  refine bind_congr fun _ => bind_congr fun _ => bind_congr fun settings => ?_
  exact filterEvents_mapEvents _ _ _

/-- Without the stages it is the installation. -/
theorem erase_staged : (i.staged device os).erase = i.carryOut device os := by
  unfold staged carryOut
  simp only [Staged.erase_bind, Staged.erase_ofSession, Staged.erase_attempt, Staged.erase_rescue,
    erase_conductStaged, Staged.erase_ofFallible]

end Installer

end Reflash
