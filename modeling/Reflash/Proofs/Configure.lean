import Reflash.Proofs.Ensures
import Reflash.Proofs.Keys
import Reflash.Session

set_option autoImplicit false

/-! # How settings come about

Settings are written in three layers, of which the later ones count: the defaults of the options, what
was set in the session, and what the user decides (`Installer.configure_settles`). Then they are
frozen, and refuse every write (`Settings.update_frozen`). -/

namespace Reflash

open Run

variable {ε σ α β : Type}

/-- A run that goes on with another one returns what the second one does, after the first one has
returned. -/
theorem Run.bind_eq_returned {r : Run ε σ α} {next : α → Run ε σ β} {n : Nat} {w w' : σ} {b : β}
    {es : List ε} (h : (r >>= next) n w = ⟨.returned b, es, w'⟩) :
    ∃ a before w₁ after, r n w = ⟨.returned a, before, w₁⟩ ∧
      next a n w₁ = ⟨.returned b, after, w'⟩ ∧ es = before ++ after := by
  rw [bind_apply] at h
  rcases hr : r n w with ⟨a | _ | _, before, w₁⟩
  · rw [hr] at h
    obtain ⟨hending, hevents, hworld⟩ := Trail.mk.inj h
    exact ⟨a, before, w₁, (next a n w₁).events, rfl, by rw [← hending, ← hworld], hevents.symm⟩
  all_goals
    rw [hr] at h
    cases h

/-- A run that goes on with another one fails where the first one does, or where the second one does
after the first one has returned. -/
theorem Run.bind_eq_raised {r : Run ε σ α} {next : α → Run ε σ β} {n : Nat} {w w' : σ} {e : Fault}
    {es : List ε} (h : (r >>= next) n w = ⟨.raised e, es, w'⟩) :
    r n w = ⟨.raised e, es, w'⟩ ∨
      ∃ a before w₁ after, r n w = ⟨.returned a, before, w₁⟩ ∧
        next a n w₁ = ⟨.raised e, after, w'⟩ ∧ es = before ++ after := by
  rw [bind_apply] at h
  rcases hr : r n w with ⟨a | e' | _, before, w₁⟩
  all_goals rw [hr] at h
  · obtain ⟨hending, hevents, hworld⟩ := Trail.mk.inj h
    exact .inr ⟨a, before, w₁, (next a n w₁).events, rfl, by rw [← hending, ← hworld],
      hevents.symm⟩
  · cases h
    exact .inl rfl
  · cases h

theorem Run.ofFallible_eq_returned {x : Fallible α} {n : Nat} {w w' : σ} {a : α} {es : List ε}
    (h : (liftM x : Run ε σ α) n w = ⟨.returned a, es, w'⟩) : x = .ok a ∧ w' = w := by
  cases x with
  | ok a =>
    cases h
    exact ⟨rfl, rfl⟩
  | error e => cases h

/-- A run whose failure is handled returns what it returns itself, or what the handler does. -/
theorem Run.rescue_eq_returned {r : Run ε σ α} {handler : Fault → Run ε σ α} {n : Nat} {w w' : σ}
    {a : α} {es : List ε} (h : (r.rescue handler) n w = ⟨.returned a, es, w'⟩) :
    (r n w).ending = .returned a ∨
      ∃ e w₁ after, (handler e) n w₁ = ⟨.returned a, after, w'⟩ := by
  unfold Run.rescue at h
  rcases hr : r n w with ⟨_ | e | _, before, w₁⟩
  · rw [hr] at h
    cases h
    exact .inl rfl
  · rw [hr] at h
    obtain ⟨hending, -, hworld⟩ := Trail.mk.inj h
    exact .inr ⟨e, w₁, (handler e n w₁).events, by rw [← hending, ← hworld]⟩
  · rw [hr] at h
    cases h

/-! ## Writing settings -/

namespace Settings

theorem update_eq {s : Settings} (hs : s.frozen = false) (updates : Entries) :
    s.update updates = .ok { s with data := s.data.putAll updates } := by
  induction updates generalizing s with
  | nil => rfl
  | cons e updates ih =>
    obtain ⟨key, value⟩ := e
    have hset : s.set key value = .ok { s with data := s.data.put key value } := by
      rw [set, hs]
      rfl
    rw [update, hset]
    exact ih hs

/-- What frozen settings refuse a key with: they say which, as far as it can be written. -/
def refusal (key : Value) : Fault :=
  if key.writable then .runtime ("settings are frozen; cannot set " ++ key.literal) else .unwritable

theorem set_frozen {s : Settings} (hs : s.frozen = true) (key value : Value) :
    s.set key value = .error (refusal key) := by
  rw [set, if_pos hs, refusal]
  unfold Value.exact
  split <;> rfl

/-- Frozen settings refuse to be written. -/
theorem update_frozen {s : Settings} (hs : s.frozen = true) (key value : Value)
    (updates : Entries) : s.update ((key, value) :: updates) = .error (refusal key) := by
  rw [update, set_frozen hs]

end Settings

/-! ## Defaults -/

namespace OperatingSystem

/-- The defaults that option entries give, in order. -/
def defaultEntries (options : List Value) : Entries :=
  options.filterMap fun option => (optionDefault option).toOption.join

theorem defaultsFrom_eq {acc es : Entries} {options : List Value}
    (h : defaultsFrom acc options = .ok es) : es = acc.putAll (defaultEntries options) := by
  induction options generalizing acc with
  | nil =>
    cases h
    rfl
  | cons option options ih =>
    unfold defaultsFrom at h
    split at h
    · cases h
    · next hnone =>
      have hskip : defaultEntries (option :: options) = defaultEntries options :=
        List.filterMap_cons_none (by rw [hnone]; rfl)
      rw [ih h, hskip]
    · next var value hsome =>
      have hcons : defaultEntries (option :: options) = (var, value) :: defaultEntries options :=
        List.filterMap_cons_some (by rw [hsome]; rfl)
      rw [ih h, hcons]
      rfl

theorem optionDefault_isKey {option var value : Value}
    (h : optionDefault option = .ok (some (var, value))) : var.isKey = true := by
  unfold optionDefault at h
  obtain ⟨hasVar, -, h⟩ := Fallible.bind_eq_ok h
  split at h
  · obtain ⟨hasValue, -, h⟩ := Fallible.bind_eq_ok h
    split at h
    · obtain ⟨var', -, h⟩ := Fallible.bind_eq_ok h
      obtain ⟨value', -, h⟩ := Fallible.bind_eq_ok h
      split at h
      · next hkey =>
        cases h
        exact hkey
      · cases h
    · cases h
  · cases h

theorem defaultEntries_isKey {options : List Value} :
    ∀ p ∈ defaultEntries options, p.1.isKey := by
  intro p hp
  obtain ⟨option, -, hoption⟩ := List.mem_filterMap.mp hp
  cases hdefault : optionDefault option with
  | error e =>
    rw [hdefault] at hoption
    cases hoption
  | ok entry =>
    rw [hdefault] at hoption
    cases hoption
    exact optionDefault_isKey hdefault

end OperatingSystem

/-! ## Configuration -/

namespace Host

/-- A line whose text is made late is written or left out, and nothing else happens. -/
theorem logText_cases {level : Level} {source : String} {message : Fallible String} {n : Nat}
    {w w' : σ} {o : Ending Unit} {es : List Signal}
    (h : logText level source message n w = ⟨o, es, w'⟩) :
    o = .returned () ∧ w' = w ∧ (es = [] ∨ ∃ text, es = [.logged ⟨level, source, text⟩]) := by
  cases message with
  | ok text =>
    cases h
    exact ⟨rfl, rfl, .inr ⟨text, rfl⟩⟩
  | error e =>
    cases h
    exact ⟨rfl, rfl, .inl rfl⟩

/-- A question that is answered has the answer that the shell gives. -/
theorem ask_returned {host : Host σ} {prompt : Prompt} {data : Entries} {n : Nat} {w w' : σ}
    {d : Decision} {es : List Signal} (hdata : data ≠ [])
    (h : host.ask prompt (.mapping data) none none none n w = ⟨.returned d, es, w'⟩) :
    (host.decide { prompt, data } n w).ending = .returned d := by
  have hread : (if (Value.mapping data).truth then (Value.mapping data).asMapping else .ok []) =
      .ok data := if_pos (by simpa [Value.truth] using hdata)
  unfold ask at h
  rw [hread] at h
  obtain ⟨_, _, _, _, hdone, h, -⟩ := bind_eq_returned h
  cases hdone
  obtain ⟨_, _, _, _, hlog, h, -⟩ := bind_eq_returned h
  cases hlog
  obtain ⟨_, _, _, _, hprompted, h, -⟩ := bind_eq_returned h
  cases hprompted
  obtain ⟨d', _, _, _, hdecided, h, -⟩ := bind_eq_returned h
  obtain ⟨_, _, _, _, hlog, h, -⟩ := bind_eq_returned h
  cases hlog
  cases h
  rcases rescue_eq_returned hdecided with hreturned | ⟨e, _, _, hraised⟩
  · exact hreturned
  · cases e <;> cases hraised

end Host

namespace Installer

/-- The question how to set options, given what they are set to so far. -/
def configureRequest (options : List Value) (preset : Entries) : PromptRequest where
  prompt := .configure
  data := [(.str "options", .list options), (.str "values", .mapping preset)]

/-- What the user decides about options: nothing if there are none, else what the answer says. -/
inductive Decides (i : Installer σ) (options : List Value) (preset : Entries) (n : Nat)
    (w : Hosted σ) : Entries → Prop
  | nothing (hnone : options = []) : Decides i options preset n w []
  | answer {d : Decision} {decided : Entries} (hsome : options ≠ [])
    (hdecide : (i.host.decide (configureRequest options preset) n w).ending = .returned d)
    (hresumes : d.resumes = true) (hvalue : d.value.orElse (.mapping []) = .mapping decided) :
    Decides i options preset n w decided

variable {i : Installer σ} {os : OperatingSystem} {n : Nat} {w w' : Hosted σ}
  {settings : Settings} {es : List Signal}

theorem askOptions_returned {options : List Value} {preset : Settings} (hsome : options ≠ [])
    (hfrozen : preset.frozen = false)
    (h : i.askOptions options preset n w = ⟨.returned settings, es, w'⟩) :
    ∃ decided, i.Decides options preset.data n w decided ∧
      settings = { preset with data := preset.data.putAll decided } := by
  obtain ⟨_, _, _, _, hlog, h, -⟩ := bind_eq_returned h
  cases hlog
  obtain ⟨d, _, _, _, hask, h, -⟩ := bind_eq_returned h
  have hdecide := Host.ask_returned (List.cons_ne_nil _ _) hask
  cases hresumes : d.resumes with
  | false =>
    rw [hresumes] at h
    cases h
  | true =>
    simp only [hresumes, Bool.not_true, Bool.false_eq_true, if_false] at h
    cases hvalue : d.value.orElse (.mapping []) with
    | mapping decided =>
      rw [hvalue] at h
      change (Run.ofFallible (preset.update decided) : Job (Hosted σ) Settings) n _ = _ at h
      rw [Settings.update_eq hfrozen] at h
      cases h
      exact ⟨decided, .answer hsome hdecide hresumes hvalue, rfl⟩
    | _ =>
      rw [hvalue] at h
      cases h

/-- What settings are before the user decides: the defaults, and what was set in the session. -/
def presetEntries (options : List Value) (s : Session) : Entries :=
  (Entries.putAll [] (Entries.ofPairs (OperatingSystem.defaultEntries options))).putAll s.options

/-- What the user decides is written over what the settings are before. -/
theorem configure_returned (h : i.configure os n w = ⟨.returned settings, es, w'⟩) :
    ∃ options decided, os.options = .ok options ∧
      i.Decides options (presetEntries options w.session) n w decided ∧
      settings = ⟨(presetEntries options w.session).putAll decided, true⟩ := by
  obtain ⟨defaults, _, w₁, _, hread, h₁, -⟩ := bind_eq_returned h
  obtain ⟨hdefaults, hw₁⟩ := ofFallible_eq_returned hread
  subst hw₁
  obtain ⟨first, _, _, _, hfirst, h₂, -⟩ := bind_eq_returned h₁
  rw [Settings.update_eq rfl] at hfirst
  cases hfirst
  obtain ⟨session, _, _, _, hsession, h₃, -⟩ := bind_eq_returned h₂
  cases hsession
  obtain ⟨preset, _, _, _, hpreset, h₄, -⟩ := bind_eq_returned h₃
  rw [Settings.update_eq rfl] at hpreset
  cases hpreset
  obtain ⟨options, _, w₂, _, hread, h₅, -⟩ := bind_eq_returned h₄
  obtain ⟨hoptions, hw₂⟩ := ofFallible_eq_returned hread
  subst hw₂
  obtain ⟨options', hoptions', hentries⟩ := Fallible.bind_eq_ok hdefaults
  cases hoptions.symm.trans hoptions'
  have hdata : (Entries.putAll [] defaults).putAll w₂.session.options =
      presetEntries options w₂.session := by
    rw [OperatingSystem.defaultsFrom_eq hentries]
    rfl
  dsimp only at h₅
  rw [hdata] at h₅
  split at h₅
  · next hempty =>
    obtain ⟨_, _, _, _, hlog, h₆, -⟩ := bind_eq_returned h₅
    cases hlog
    rw [pure_bind] at h₆
    obtain ⟨_, _, _, _, hlog, h₇, -⟩ := bind_eq_returned h₆
    obtain ⟨-, rfl, -⟩ := Host.logText_cases hlog
    cases h₇
    exact ⟨options, [], hoptions, .nothing (List.isEmpty_iff.mp hempty), rfl⟩
  · next hsome =>
    obtain ⟨decidedSettings, _, _, _, hask, h₆, -⟩ := bind_eq_returned h₅
    have hne : options ≠ [] := fun hnil => hsome (List.isEmpty_iff.mpr hnil)
    obtain ⟨decided, hdecided, rfl⟩ := askOptions_returned hne rfl hask
    obtain ⟨_, _, _, _, hlog, h₇, -⟩ := bind_eq_returned h₆
    obtain ⟨-, rfl, -⟩ := Host.logText_cases hlog
    cases h₇
    exact ⟨options, decided, hoptions, hdecided, rfl⟩

/-- What a key is set to: what the user decides about it, else what was set in the session, else what
the last option for it that has a default says. -/
theorem get?_preset_putAll (options : List Value) (s : Session) (decided : Entries) {k : Value}
    (hk : k.isKey) : ((presetEntries options s).putAll decided).get? k =
      ((decided.last? k).or (s.options.last? k)).or
        ((OperatingSystem.defaultEntries options).last? k) := by
  have hdistinct : (Entries.ofPairs (OperatingSystem.defaultEntries options)).Distinct :=
    Entries.ofPairs_distinct OperatingSystem.defaultEntries_isKey
  have hnone : Entries.get? k [] = none := rfl
  rw [Entries.get?_putAll hk, presetEntries, Entries.get?_putAll hk, Entries.get?_putAll hk,
    Entries.last?_eq_get? hk hdistinct, Entries.ofPairs, Entries.get?_putAll hk, hnone,
    Option.or_none, Option.or_none, Option.or_assoc]

end Installer

/-! ## Installations -/

/-- What a session has chosen when an index is to be installed: a device and one of its systems, with
names that can be written. -/
def Session.Selects (s : Session) (index : Value) (device : Device) (os : OperatingSystem) : Prop :=
  s.config = some device ∧
    (∃ number, index.asWhole = .ok number ∧ device.selectSystem number = .ok os) ∧
    ∃ line, Installer.heading device os = .ok line

namespace Installer

/-- The line that an installation begins with needs three names, and says them. -/
theorem heading_eq_ok {device : Device} {os : OperatingSystem} {line : String}
    (h : heading device os = .ok line) :
    os.shownName = .ok os.name ∧ device.shownName = .ok device.name ∧
      device.shownCodename = .ok device.codename ∧
      line = "Installing " ++ os.name ++ " on your " ++ device.name ++ " (" ++ device.codename ++
        ")" := by
  obtain ⟨osName, hos, h⟩ := Fallible.bind_eq_ok h
  obtain ⟨name, hname, h⟩ := Fallible.bind_eq_ok h
  obtain ⟨codename, hcodename, h⟩ := Fallible.bind_eq_ok h
  cases h
  obtain ⟨-, rfl⟩ := Value.shown_eq_ok.mp hos
  obtain ⟨-, rfl⟩ := Value.shown_eq_ok.mp hname
  obtain ⟨-, rfl⟩ := Value.shown_eq_ok.mp hcodename
  exact ⟨hos, hname, hcodename, rfl⟩

/-- What is done once it is known what is to be installed. -/
def carryOut (i : Installer σ) (device : Device) (os : OperatingSystem) : Job (Hosted σ) Bool := do
  Session.log .info ("Installing " ++ os.name ++ " on your " ++ device.name ++ " (" ++
    device.codename ++ ")")
  Session.modify fun s => { s with active := true, cancelRequested := false }
  let result ← ((i.conduct device os).rescue i.stopped).attempt
  Session.modify fun s => { s with active := false }
  Run.ofFallible result

theorem current_bind (next : Session → Job (Hosted σ) β) (n : Nat) (w : Hosted σ) :
    (Session.current >>= next) n w = next w.session n w := rfl

/-- An installation that nothing stands in the way of is carried out. -/
theorem install_eq_carryOut {i : Installer σ} {index : Value} {w : Hosted σ} {device : Device}
    {os : OperatingSystem} (hidle : w.session.active = false)
    (hselects : w.session.Selects index device os) (n : Nat) :
    i.install index n w = i.carryOut device os n w := by
  obtain ⟨hconfig, ⟨number, hnumber, hos⟩, line, hline⟩ := hselects
  unfold install Session.requireConfig
  rw [current_bind, hidle]
  simp only [Bool.false_eq_true, if_false, bind_assoc]
  rw [current_bind, hconfig]
  simp only [pure_bind]
  rw [hnumber, ofFallible_ok_bind, hos, ofFallible_ok_bind, hline, ofFallible_ok_bind]
  obtain ⟨-, -, -, rfl⟩ := heading_eq_ok hline
  rfl

/-- An installation fails at once, or it is known of what. -/
theorem install_cases (i : Installer σ) (index : Value) (n : Nat) (w : Hosted σ) :
    (∃ e, i.install index n w = ⟨.raised e, [], w⟩) ∨
      ∃ device os, w.session.Selects index device os ∧
        i.install index n w = i.carryOut device os n w := by
  cases hactive : w.session.active with
  | true =>
    unfold install
    rw [current_bind, hactive]
    exact .inl ⟨_, rfl⟩
  | false =>
    by_cases hselects : ∃ device os, w.session.Selects index device os
    · obtain ⟨device, os, hselects⟩ := hselects
      exact .inr ⟨device, os, hselects, install_eq_carryOut hactive hselects n⟩
    · left
      unfold install Session.requireConfig
      rw [current_bind, hactive]
      simp only [Bool.false_eq_true, if_false, bind_assoc]
      rw [current_bind]
      cases hconfig : w.session.config with
      | none => exact ⟨_, rfl⟩
      | some device =>
        simp only [pure_bind]
        cases hnumber : index.asWhole with
        | error e => exact ⟨e, rfl⟩
        | ok number =>
          rw [ofFallible_ok_bind]
          cases hos : device.selectSystem number with
          | error e => exact ⟨e, rfl⟩
          | ok os =>
            rw [ofFallible_ok_bind]
            cases hline : heading device os with
            | error e => exact ⟨e, rfl⟩
            | ok line =>
              exact absurd ⟨device, os, hconfig, ⟨number, hnumber, hos⟩, line, hline⟩ hselects

end Installer

/-- The world once an installation is under way. -/
def Hosted.begun (w : Hosted σ) : Hosted σ :=
  { w with session := { w.session with active := true, cancelRequested := false } }

/-- The world once the installation that was under way has ended. -/
def Hosted.ended (w : Hosted σ) : Hosted σ :=
  { w with session := { w.session with active := false } }

namespace Installer

variable {i : Installer σ} {device : Device} {os : OperatingSystem} {n : Nat} {w w₁ w₂ : Hosted σ}

/-- The line with which an installation begins. -/
def firstLine (device : Device) (os : OperatingSystem) : Signal :=
  .logged ⟨.info, "installer", "Installing " ++ os.name ++ " on your " ++ device.name ++ " (" ++
    device.codename ++ ")"⟩

/-- An installation is under way until it has ended, however it ends. -/
theorem carryOut_apply (i : Installer σ) (device : Device) (os : OperatingSystem) (n : Nat)
    (w : Hosted σ) : i.carryOut device os n w =
      let t := ((i.conduct device os).rescue i.stopped) n w.begun
      ⟨t.ending, firstLine device os :: t.events,
        match t.ending with
        | .unfinished => t.world
        | _ => t.world.ended⟩ := by
  let rest : Job (Hosted σ) Bool := do
    let result ← ((i.conduct device os).rescue i.stopped).attempt
    Session.modify fun s => { s with active := false }
    Run.ofFallible result
  -- That the session is changed leaves nothing behind.
  show (⟨(rest n w.begun).ending, firstLine device os :: (rest n w.begun).events,
    (rest n w.begun).world⟩ : Trail Signal (Hosted σ) Bool) = _
  have hrest : rest n w.begun =
      let t := ((i.conduct device os).rescue i.stopped) n w.begun
      ⟨t.ending, t.events, match t.ending with
        | .unfinished => t.world
        | _ => t.world.ended⟩ := by
    unfold rest
    rw [bind_apply]
    unfold Run.attempt
    rcases ((i.conduct device os).rescue i.stopped) n w.begun with ⟨_ | _ | _, es, w'⟩
    · exact congrArg (Trail.mk _ · _) (List.append_nil es)
    · exact congrArg (Trail.mk _ · _) (List.append_nil es)
    · rfl
  rw [hrest]

/-- What an installation does that gets as far as its steps. -/
theorem conduct_apply {settings : Settings} {asked configured : List Signal}
    (hasked : (i.askPrerequisites device os >>= fun _ => i.askTerms os) n w =
      ⟨.returned (), asked, w₁⟩)
    (hconfigured : i.configure os n w₁ = ⟨.returned settings, configured, w₂⟩) :
    i.conduct device os n w = ((((i.workflow device os settings).run
      (os.steps ++ [endStep])).toJob n w₂).after configured).after asked := by
  have hconduct : i.conduct device os = (i.askPrerequisites device os >>= fun _ => i.askTerms os) >>=
      fun _ => i.configure os >>= fun settings =>
        ((i.workflow device os settings).run (os.steps ++ [endStep])).toJob := by
    rw [bind_assoc]
    rfl
  rw [hconduct, bind_of_returned hasked, bind_of_returned hconfigured]

end Installer

end Reflash
