import Reflash.Proofs.Conduct
import Reflash.Proofs.Dispatching

set_option autoImplicit false

/-! # Requests for system images

A system image is requested with the settings of the run and with the device. An installation asks the
client for nothing else, so another client that does the same for these options makes no difference to
it (`Workflow.onClient_run`); and they are the settings but for the device, which is the chosen one unless a
setting is named so (`Installer.install_requests`). -/

namespace Reflash

open Run

variable {σ : Type}

/-! ## Options -/

namespace Entries

theorem isKey_of_put {key v : Value} {es : Entries} (h : ∀ e ∈ es.put key v, e.1.isKey) : key.isKey := by
  induction es with
  | nil => exact h _ (List.mem_singleton_self _)
  | cons e es ih =>
    rw [put] at h
    split at h
    · next hsame => exact Value.isKey_of_same (h (e.1, v) List.mem_cons_self) hsame
    · exact ih fun f hf => h f (List.mem_cons_of_mem _ hf)

theorem mem_keys_put {key v k : Value} {es : Entries} (h : k ∈ es.keys) : k ∈ (es.put key v).keys := by
  induction es with
  | nil => cases h
  | cons e es ih =>
    rw [put]
    split
    · exact h
    · exact (List.mem_cons.mp h).elim (fun heq => heq ▸ List.mem_cons_self)
        fun h => List.mem_cons_of_mem _ (ih h)

theorem mem_keys_putAll {k : Value} {es updates : Entries} (h : k ∈ es.keys) :
    k ∈ (es.putAll updates).keys := by
  induction updates generalizing es with
  | nil => exact h
  | cons u updates ih => exact ih (mem_keys_put h)

/-- What is stored one after the other has each key once, if what there is in the end are keys. -/
theorem Distinct.putAll {es updates : Entries} (h : es.Distinct)
    (hkeys : ∀ k ∈ (es.putAll updates).keys, k.isKey) : (es.putAll updates).Distinct := by
  induction updates generalizing es with
  | nil => exact h
  | cons u updates ih =>
    have hput : ∀ e ∈ es.put u.1 u.2, e.1.isKey := fun e he => by
      have hlast : e.1 ∈ ((es.put u.1 u.2).putAll updates).keys :=
        mem_keys_putAll (List.mem_map_of_mem he)
      exact hkeys _ hlast
    exact ih (h.put (isKey_of_put hput) u.2) hkeys

end Entries

namespace Builtin

/-- The options of a run with a device whose codename can be written. -/
def runOptions (ctx : Context σ) : Entries :=
  Entries.putAll [(.str "device", .str ctx.device.codename)] ctx.settings.data

variable {ctx : Context σ}

theorem imageOptions_eq (h : ctx.device.shownCodename = .ok ctx.device.codename) :
    imageOptions ctx = .ok (runOptions ctx) := by
  rw [imageOptions, h]
  rfl

/-- A setting named so takes the place of the device. -/
theorem runOptions_device (h : ctx.settings.data.Distinct) :
    (runOptions ctx).get? (.str "device") =
      (ctx.settings.data.get? (.str "device")).or (some (.str ctx.device.codename)) := by
  have hdevice : Entries.get? (.str "device") [(.str "device", .str ctx.device.codename)] =
      some (.str ctx.device.codename) := if_pos (Entries.same_str.mpr rfl)
  rw [runOptions, Entries.get?_putAll rfl, Entries.last?_eq_get? rfl h, hdevice]

theorem runOptions_other (h : ctx.settings.data.Distinct) {k : Value} (hk : k.isKey)
    (hne : k ≠ .str "device") : (runOptions ctx).get? k = ctx.settings.data.get? k := by
  have hnone : Entries.get? k [(.str "device", .str ctx.device.codename)] = none := by
    refine Entries.get?_eq_none fun e he => ?_
    rw [List.mem_singleton.mp he, Bool.eq_false_iff]
    exact fun hsame => hne (Entries.same_str.mp (Value.same_symm hk hsame))
  rw [runOptions, Entries.get?_putAll hk, Entries.last?_eq_get? hk h, hnone, Option.or_none]

end Builtin

/-! ## Clients -/

/-- The same host with another client for system images. -/
def Host.onClient (host : Host σ) (client : Entries → (Value → Job σ Unit) → Job σ Unit) : Host σ :=
  { host with tools := { host.tools with systemImage := some client } }

theorem Host.onClient_ask (host : Host σ) (client : Entries → (Value → Job σ Unit) → Job σ Unit)
    (prompt : Prompt) (data : Value) (action : Option String) (step : Option Entries)
    (cause : Option String) :
    (host.onClient client).ask prompt data action step cause = host.ask prompt data action step cause :=
  rfl

namespace Builtin

variable {ctx : Context σ} {client : Entries → (Value → Job σ Unit) → Job σ Unit}
  (hname : ctx.system.shownName = .ok ctx.system.name)
  (hcodename : ctx.device.shownCodename = .ok ctx.device.codename)
  (h : ctx.host.tools.systemImage = some client)
include hname hcodename h

/-- The client is asked once, with the options of the run. -/
theorem installImage_of_client (payload : Value) :
    installImage payload ctx = do
      ctx.host.tell (.progress (.int 0))
      ctx.host.tell .idle
      ctx.host.tell (.status ("Downloading " ++ ctx.system.name) (some true))
      ctx.host.tell (.under "Checking local files")
      Run.emit (.called "system_image" "install" [.mapping (runOptions ctx)])
      client (runOptions ctx) ctx.host.reportProgress
      ctx.host.tell (.progress (.int 0))
      return .null := by
  rw [installImage, h, hname, imageOptions_eq hcodename]
  rfl

omit hname hcodename h in
/-- Only the handler that installs a system image makes use of the client. -/
theorem handler_onClient {id : String} {handler : Handler σ} (h : table.handler? id = some handler)
    (payload : Value) (hsame : installImage payload (ctx.on (ctx.host.onClient client)) =
      installImage payload ctx) :
    handler payload (ctx.on (ctx.host.onClient client)) = handler payload ctx := by
  obtain ⟨ns, verb, -, verbs, hns, hverb⟩ := handler?_eq_some_iff.mp h
  have hmem := List.mem_reverse.mp (Pairs.mem_of_lookup hverb)
  -- The others take of the host what is the same for both clients, so there is nothing to compare.
  simp only [plugins, List.mem_cons, List.not_mem_nil, Prod.mk.injEq, or_false] at hns
  rcases hns with ⟨-, rfl⟩ | ⟨-, rfl⟩ | ⟨-, rfl⟩ | ⟨-, rfl⟩ | ⟨-, rfl⟩
  all_goals
    simp only [guideVerbs, fileVerbs, adbVerbs, fastbootVerbs, heimdallVerbs, imageVerbs,
      List.cons_append, List.nil_append, List.mem_cons, List.not_mem_nil, Prod.mk.injEq,
      Option.some.injEq, or_false] at hmem
  · rcases hmem with ⟨-, rfl⟩ | ⟨-, rfl⟩ | ⟨-, rfl⟩ | ⟨-, rfl⟩ | ⟨-, rfl⟩ | ⟨-, rfl⟩ <;> rfl
  · rcases hmem with ⟨-, rfl⟩ | ⟨-, rfl⟩ | ⟨-, rfl⟩ | ⟨-, rfl⟩ | ⟨-, rfl⟩ <;> rfl
  · rcases hmem with ⟨-, rfl⟩ | ⟨-, rfl⟩ | ⟨-, rfl⟩ | ⟨-, rfl⟩ | ⟨-, rfl⟩ | ⟨-, rfl⟩ | ⟨-, rfl⟩ |
      ⟨-, rfl⟩ | ⟨-, rfl⟩ | ⟨-, rfl⟩ | ⟨-, rfl⟩ <;> rfl
  · rcases hmem with ⟨-, rfl⟩ | ⟨-, rfl⟩ <;> rfl
  · obtain ⟨-, rfl⟩ := hmem
    exact hsame

/-- With a client that does the same for the options of the run, so does the handler. -/
theorem installImage_onClient {client' : Entries → (Value → Job σ Unit) → Job σ Unit}
    (hsame : client' (runOptions ctx) ctx.host.reportProgress =
      client (runOptions ctx) ctx.host.reportProgress) (payload : Value) :
    installImage payload (ctx.on (ctx.host.onClient client')) = installImage payload ctx := by
  rw [installImage_of_client hname hcodename h, ← hsame]
  exact @installImage_of_client _ (ctx.on (ctx.host.onClient client')) client' hname hcodename rfl
    payload

end Builtin

/-! ## Runs -/

namespace Flow

theorem eq_kinship : Kinship fun {_ : Type} (flow flow' : Flow σ _) => flow = flow' where
  pure _ := rfl
  raise _ := rfl
  unfinished := rfl
  emit _ := rfl
  bind h hnext := by rw [h, funext hnext]
  failureOf_bind h hnext _ := by rw [h, funext hnext]
  inside part h := by rw [h]
  repeatFrom h b := by rw [funext h]

end Flow

namespace Workflow

variable {wf : Workflow σ} {client client' : Entries → (Value → Job σ Unit) → Job σ Unit}

/-- The same workflow with another client for system images. -/
def onClient (wf : Workflow σ) (client : Entries → (Value → Job σ Unit) → Job σ Unit) : Workflow σ :=
  wf.onHost wf.table (wf.ctx.host.onClient client)

section

variable (htable : wf.table = Builtin.table)
  (hname : wf.ctx.system.shownName = .ok wf.ctx.system.name)
  (hcodename : wf.ctx.device.shownCodename = .ok wf.ctx.device.codename)
  (hclient : wf.ctx.host.tools.systemImage = some client)
  (hsame : client' (Builtin.runOptions wf.ctx) wf.ctx.host.reportProgress =
    client (Builtin.runOptions wf.ctx) wf.ctx.host.reportProgress)
include htable hname hcodename hclient hsame

theorem callHandler_onClient (d : Dispatch) :
    Flow.callHandler wf.table wf.ctx d =
      Flow.callHandler wf.table (wf.ctx.on (wf.ctx.host.onClient client')) d := by
  refine Flow.eq_kinship.ofFallible_bind fun handler hlookup => ?_
  have hhandler := ActionTable.lookup_eq_ok.mp hlookup
  rw [htable] at hhandler
  rw [Builtin.handler_onClient hhandler d.payload
    (Builtin.installImage_onClient hname hcodename hclient hsame _)]

/-- What is done in a workflow with the built-in handlers does not depend on what the client would do for
other options than those of the run. -/
theorem kin_onClient : wf.Kin wf.table (wf.ctx.host.onClient client')
    fun {_ : Type} (flow flow' : Flow σ _) => flow = flow' where
  calls d := by rw [callHandler_onClient htable hname hcodename hclient hsame]
  pauses := rfl
  asks _ _ _ _ _ _ := by
    unfold Recovery.ask
    dsimp only [rules, onHost, Context.on]
    rw [Host.onClient_ask]

theorem onClient_run (ss : List Step) : (wf.onClient client').run ss = wf.run ss := by
  have hsteps : (wf.onClient client').runSteps ss = wf.runSteps ss := by
    funext n w
    have hkin := kin_onClient htable hname hcodename hclient hsame
    exact congrFun (congrFun (hkin.runStepsTo Flow.eq_kinship n ss).symm n) w
  rw [run, run, hsteps]
  rfl

end

end Workflow

/-! ## Installations -/

namespace Installer

variable {i : Installer σ} {index : Value} {device : Device} {os : OperatingSystem}
  {settings : Settings} {n : Nat} {w w₁ w₂ : Hosted σ} {asked configured : List Signal}
  {client client' : Entries → (Value → Job (Hosted σ) Unit) → Job (Hosted σ) Unit}

/-- The same installer with another client for system images. -/
def onClient (i : Installer σ)
    (client : Entries → (Value → Job (Hosted σ) Unit) → Job (Hosted σ) Unit) : Installer σ :=
  { i with host := i.host.onClient client }

theorem onClient_askPrerequisites (i : Installer σ) (device : Device) (os : OperatingSystem) :
    (i.onClient client).askPrerequisites device os = i.askPrerequisites device os := rfl

theorem onClient_askTerms (i : Installer σ) (os : OperatingSystem) :
    (i.onClient client).askTerms os = i.askTerms os := rfl

theorem onClient_configure (i : Installer σ) (os : OperatingSystem) :
    (i.onClient client).configure os = i.configure os := rfl

theorem onClient_stopped (i : Installer σ) : (i.onClient client).stopped = i.stopped := rfl

/-- What is carried out depends on what is conducted in the world in which the installation is begun. -/
theorem carryOut_congr {i' : Installer σ} (hstopped : i'.stopped = i.stopped)
    (hconduct : i'.conduct device os n w.begun = i.conduct device os n w.begun) :
    i'.carryOut device os n w = i.carryOut device os n w := by
  simp only [carryOut_apply, rescue, hstopped, hconduct]

/-- An installation that gets as far as its steps does the same with another client if its run does. -/
theorem carryOut_onClient
    (hasked : (i.askPrerequisites device os >>= fun _ => i.askTerms os) n w.begun =
      ⟨.returned (), asked, w₁⟩)
    (hconfigured : i.configure os n w₁ = ⟨.returned settings, configured, w₂⟩)
    (hrun : ((i.workflow device os settings).onClient client').run (os.steps ++ [endStep]) =
      (i.workflow device os settings).run (os.steps ++ [endStep])) :
    (i.onClient client').carryOut device os n w = i.carryOut device os n w := by
  refine carryOut_congr i.onClient_stopped ?_
  have hasked' : ((i.onClient client').askPrerequisites device os >>= fun _ =>
      (i.onClient client').askTerms os) n w.begun = ⟨.returned (), asked, w₁⟩ := by
    rw [onClient_askPrerequisites, onClient_askTerms]
    exact hasked
  have hconfigured' : (i.onClient client').configure os n w₁ =
      ⟨.returned settings, configured, w₂⟩ := by
    rw [onClient_configure]
    exact hconfigured
  have hworkflow : (i.onClient client').workflow device os settings =
      (i.workflow device os settings).onClient client' := rfl
  rw [conduct_apply hasked hconfigured, conduct_apply hasked' hconfigured', hworkflow, hrun]

/-- In an installation that gets as far as its steps, a system image is requested with the settings, which
are what the user decided, else what was set in the session, else the defaults, and with the codename of the
device that is installed on, unless a setting is named `device`. No system image is requested with other
options: what a client would do for these makes no difference to the installation. -/
theorem install_requests (hidle : w.session.active = false)
    (hselects : w.session.Selects index device os)
    (hasked : (i.askPrerequisites device os >>= fun _ => i.askTerms os) n w.begun =
      ⟨.returned (), asked, w₁⟩)
    (hconfigured : i.configure os n w₁ = ⟨.returned settings, configured, w₂⟩)
    (hkeys : ∀ k ∈ settings.data.keys, k.isKey) (htable : i.table = Builtin.table)
    (hclient : i.host.tools.systemImage = some client) :
    ∃ requested : Entries,
      (∃ options decided, os.options = .ok options ∧
        i.Decides options (presetEntries options w₁.session) n w₁ decided ∧
        ∀ k, k.isKey → settings.data.get? k = ((decided.last? k).or (w₁.session.options.last? k)).or
          ((OperatingSystem.defaultEntries options).last? k)) ∧
      requested.get? (.str "device") =
        (settings.data.get? (.str "device")).or (some (.str device.codename)) ∧
      (∀ k, k.isKey → k ≠ .str "device" → requested.get? k = settings.data.get? k) ∧
      (∀ payload, Builtin.installImage payload (i.workflow device os settings).ctx = do
        i.host.tell (.progress (.int 0))
        i.host.tell .idle
        i.host.tell (.status ("Downloading " ++ os.name) (some true))
        i.host.tell (.under "Checking local files")
        Run.emit (.called "system_image" "install" [.mapping requested])
        client requested i.host.reportProgress
        i.host.tell (.progress (.int 0))
        return .null) ∧
      ∀ client', client' requested i.host.reportProgress = client requested i.host.reportProgress →
        (i.onClient client').install index n w = i.install index n w := by
  obtain ⟨options, decided, hoptions, hdecided, rfl⟩ := configure_returned hconfigured
  have ⟨_, _, line, hline⟩ := hselects
  obtain ⟨hname, -, hcodename, -⟩ := heading_eq_ok hline
  have hdistinct : ((presetEntries options w₁.session).putAll decided).Distinct := by
    have hpairs : (presetEntries options w₁.session).putAll decided = Entries.putAll []
        (Entries.ofPairs (OperatingSystem.defaultEntries options) ++ w₁.session.options ++ decided) := by
      simp [presetEntries, Entries.putAll]
    rw [hpairs] at hkeys ⊢
    exact Entries.Distinct.putAll List.Pairwise.nil hkeys
  refine ⟨Builtin.runOptions (i.workflow device os _).ctx,
    ⟨options, decided, hoptions, hdecided, fun k hk => get?_preset_putAll _ _ _ hk⟩,
    Builtin.runOptions_device hdistinct,
    fun k hk hne => Builtin.runOptions_other hdistinct hk hne,
    fun payload => Builtin.installImage_of_client hname hcodename hclient payload,
    fun client' hsame => ?_⟩
  rw [install_eq_carryOut hidle hselects, install_eq_carryOut hidle hselects]
  exact carryOut_onClient hasked hconfigured (Workflow.onClient_run htable hname hcodename hclient hsame _)

/-- The options with which a signal says that a system image is requested. -/
def imageRequest? : Signal → Option Value
  | .called "system_image" "install" [options] => some options
  | _ => none

/-- With no setting of that name the device is the chosen one, and a client that refuses any other device
makes no difference. -/
theorem chosen_device_requested :
    let image : Step := { actions := [.named "systemimage:install"] }
    let os : OperatingSystem := ⟨[(.str "name", .str "Ubuntu Touch")], [image]⟩
    let device : Device := ⟨[(.str "codename", .str "yggdrasil")], [os], { actions := [] }⟩
    let i : Installer Unit := {
      table := Builtin.table
      host := (Host.answering {}).onClient fun _ _ => return
      cacheRoot := default }
    let strict : Entries → (Value → Job (Hosted Unit) Unit) → Job (Hosted Unit) Unit :=
      fun options _ => if (options.fieldD "device").same (.str "yggdrasil") then return
        else Run.raise (.killed "another device")
    let w : Hosted Unit :=
      ⟨{ config := some device, options := [(.str "channel", .str "stable")] }, ()⟩
    (i.install (.int 0) 3 w).events.filterMap imageRequest? =
        [.ofFields [("device", .str "yggdrasil"), ("channel", .str "stable")]] ∧
      (i.onClient strict).install (.int 0) 3 w = i.install (.int 0) 3 w := by
  intro image os device i strict w
  have hasked : (i.askPrerequisites device os >>= fun _ => i.askTerms os) 3 w.begun =
      ⟨.returned (), [], w.begun⟩ := by cbv
  have hconfigured : i.configure os 3 w.begun =
      ⟨.returned ⟨[(.str "channel", .str "stable")], true⟩, (i.configure os 3 w.begun).events,
        w.begun⟩ := by cbv
  have hselects : w.session.Selects (.int 0) device os :=
    ⟨rfl, ⟨0, rfl, rfl⟩, "Installing Ubuntu Touch on your None (yggdrasil)", by cbv⟩
  obtain ⟨requested, -, hdevice, -, -, hclients⟩ := install_requests rfl hselects hasked hconfigured
    (List.forall_mem_singleton.mpr rfl) rfl rfl
  have hyggdrasil : (requested.fieldD "device").same (.str "yggdrasil") = true := by
    rw [Entries.fieldD, Entries.field?, hdevice]
    cbv
  exact ⟨by cbv, hclients strict (if_pos hyggdrasil)⟩

/-- A setting that is named like the device takes its place: the image of another device is requested. -/
theorem device_setting_requests_other :
    let image : Step := { actions := [.named "systemimage:install"] }
    let os : OperatingSystem := ⟨[(.str "name", .str "Ubuntu Touch")], [image]⟩
    let device : Device := ⟨[(.str "codename", .str "yggdrasil")], [os], { actions := [] }⟩
    let i : Installer Unit := {
      table := Builtin.table
      host := (Host.answering {}).onClient fun _ _ => return
      cacheRoot := default }
    let w : Hosted Unit :=
      ⟨{ config := some device, options := [(.str "device", .str "bacon")] }, ()⟩
    device.codename = "yggdrasil" ∧ (i.install (.int 0) 3 w).ending = .returned true ∧
      (i.install (.int 0) 3 w).events.filterMap imageRequest? =
        [.ofFields [("device", .str "bacon")]] := by
  cbv

end Installer

end Reflash
