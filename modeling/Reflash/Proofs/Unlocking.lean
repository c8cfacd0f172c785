import Mathlib
import Reflash.Proofs.Questions
import Reflash.Proofs.Start

set_option autoImplicit false

/-! # The unlock flow

The first lock failure of a step leads into the unlock flow, if the user agrees. The unlock actions are
run again as long as they end because unlocking is disabled and the user goes on (`Recovery.Retries`),
and the first run that ends in any other way decides what becomes of the step (`Recovery.LastRun`).
These relations say exactly what is left and how, in which state of the world each part starts, and
what recovery asks; `Workflow.start_of_first_lock` says that a start of a step goes in one of these
ways, and what is remembered for the next one. -/

namespace Reflash

open Run

variable {σ : Type}

namespace Recovery

/-! ## The ways of the unlock flow -/

section

variable (rules : Rules σ) (s : Step) (b : Nat)

/-- The unlock actions ended because unlocking is disabled, and the user went on. -/
inductive Retry (w : σ) (g : ActionFailure) : List Event → σ → Prop
  | mk {w₁ w₂ : σ} {tried asked : List Event} {d : Decision}
    (failed : rules.actions rules.ctx.device.unlockStep.actions b w =
      ⟨.raised (.inAction g.id g.cause), tried, w₁⟩)
    (disabled : g.kind = .unlockDisabled)
    (asking : ask rules .oemLock g s [("enable", .bool true)] b w₁ = ⟨.returned d, asked, w₂⟩)
    (resumed : d.resumes) : Retry w g (tried.map (.within .unlock) ++ asked) w₂

/-- So they ended with each of the failures in turn. -/
inductive Retries : σ → List ActionFailure → List Event → σ → Prop
  | none {w : σ} : Retries w [] [] w
  | again {w w₁ w₂ : σ} {g : ActionFailure} {gs : List ActionFailure} {es es' : List Event}
    (first : Retry rules s b w g es w₁) (more : Retries w₁ gs es' w₂) :
    Retries w (g :: gs) (es ++ es') w₂

/-- A failure is put before the user. -/
inductive PutBefore (g : ActionFailure) (w : σ) : Trail Event σ Resolution → Prop
  | retried {w' : σ} {asked : List Event} {d : Decision}
    (asking : ask rules .error g s [] b w = ⟨.returned d, asked, w'⟩) (choice : d.choice = .retry) :
    PutBefore g w
      ⟨.returned .replay, .line .error (g.id ++ " failed: " ++ g.cause.text) :: asked, w'⟩
  | ignored {w' : σ} {asked : List Event} {d : Decision}
    (asking : ask rules .error g s [] b w = ⟨.returned d, asked, w'⟩)
    (choice : d.choice = .ignore ∨ d.choice = .continue) :
    PutBefore g w
      ⟨.returned .done, .line .error (g.id ++ " failed: " ++ g.cause.text) ::
        (asked ++ [.line .warning ("Ignoring failure of " ++ g.id)]), w'⟩
  | aborted {w' : σ} {asked : List Event} {d : Decision}
    (asking : ask rules .error g s [] b w = ⟨.returned d, asked, w'⟩) (choice : d.choice = .abort) :
    PutBefore g w
      ⟨.raised (.aborted (g.id ++ " failed: " ++ g.cause.text)),
        .line .error (g.id ++ " failed: " ++ g.cause.text) :: asked, w'⟩
  | unanswered {t : Trail Event σ Decision} {o : Ending Resolution}
    (asking : ask rules .error g s [] b w = t) (stopped : t.ending.forget ≠ .returned ())
    (same : o.forget = t.ending.forget) :
    PutBefore g w ⟨o, .line .error (g.id ++ " failed: " ++ g.cause.text) :: t.events, t.world⟩

/-- What is done about the failure with which the unlock actions ended, if it is neither a kill nor
that unlocking is disabled; and the questions that are asked. -/
inductive GivesUp (g : ActionFailure) (w : σ) :
    List PromptRequest → Trail Event σ Resolution → Prop
  | optional (optional : rules.ctx.device.unlockStep.optional) :
    GivesUp g w [] ⟨.returned .replay,
      [.line .info ("Ignoring failure of optional unlock flow: " ++ g.cause.text), .left .unlock], w⟩
  | replaced {w' : σ} {es : List Event} (required : rules.ctx.device.unlockStep.optional = false)
    (nonempty : rules.ctx.device.unlockStep.fallback ≠ [])
    (run : rules.actions rules.ctx.device.unlockStep.fallback b w = ⟨.returned (), es, w'⟩) :
    GivesUp g w [] ⟨.returned .replay,
      .line .warning ("Unlock flow failed, running its fallback: " ++ g.cause.text) ::
        .entered .unlockFallback ::
          (es.map (.within .unlockFallback) ++ [.left .unlockFallback, .left .unlock]), w'⟩
  | escaped {t : Trail Event σ Unit} {o : Ending Resolution}
    (required : rules.ctx.device.unlockStep.optional = false)
    (nonempty : rules.ctx.device.unlockStep.fallback ≠ [])
    (run : rules.actions rules.ctx.device.unlockStep.fallback b w = t)
    (stopped : t.ending.forget ≠ .returned ()) (same : o.forget = t.ending.forget) :
    GivesUp g w [] ⟨o,
      .line .warning ("Unlock flow failed, running its fallback: " ++ g.cause.text) ::
        .entered .unlockFallback :: t.events.map (.within .unlockFallback), t.world⟩
  | asked {t : Trail Event σ Resolution} (required : rules.ctx.device.unlockStep.optional = false)
    (empty : rules.ctx.device.unlockStep.fallback = []) (put : PutBefore rules s b g w t) :
    GivesUp g w [g.question s .error []]
      (t.after [.line .warning ("Unlock flow failed: " ++ g.cause.text)])

/-- A run of the unlock actions after which they are not run again: what becomes of the step, and the
questions that are asked. -/
inductive LastRun (w : σ) : List PromptRequest → Trail Event σ Resolution → Prop
  | through {w' : σ} {tried : List Event}
    (run : rules.actions rules.ctx.device.unlockStep.actions b w = ⟨.returned (), tried, w'⟩) :
    LastRun w [] ⟨.returned .replay, tried.map (.within .unlock) ++ [.left .unlock], w'⟩
  | passed {t : Trail Event σ Unit} {o : Ending Resolution}
    (run : rules.actions rules.ctx.device.unlockStep.actions b w = t)
    (stopped : t.ending.forget ≠ .returned ()) (other : ∀ id c, t.ending ≠ .raised (.inAction id c))
    (same : o.forget = t.ending.forget) : LastRun w [] ⟨o, t.events.map (.within .unlock), t.world⟩
  | killed {w' : σ} {tried : List Event} {g : ActionFailure}
    (run : rules.actions rules.ctx.device.unlockStep.actions b w =
      ⟨.raised (.inAction g.id g.cause), tried, w'⟩)
    (kind : g.kind = .killed) :
    LastRun w [] ⟨.raised g.cause, tried.map (.within .unlock), w'⟩
  | declined {w₁ w₂ : σ} {tried asked : List Event} {g : ActionFailure} {d : Decision}
    (run : rules.actions rules.ctx.device.unlockStep.actions b w =
      ⟨.raised (.inAction g.id g.cause), tried, w₁⟩)
    (disabled : g.kind = .unlockDisabled)
    (asking : ask rules .oemLock g s [("enable", .bool true)] b w₁ = ⟨.returned d, asked, w₂⟩)
    (declined : d.resumes = false) :
    LastRun w [g.question s .oemLock [("enable", .bool true)]]
      ⟨.raised (.aborted "OEM unlocking was not enabled"),
        tried.map (.within .unlock) ++ asked, w₂⟩
  | unanswered {w₁ : σ} {tried : List Event} {g : ActionFailure} {t : Trail Event σ Decision}
    {o : Ending Resolution}
    (run : rules.actions rules.ctx.device.unlockStep.actions b w =
      ⟨.raised (.inAction g.id g.cause), tried, w₁⟩)
    (disabled : g.kind = .unlockDisabled)
    (asking : ask rules .oemLock g s [("enable", .bool true)] b w₁ = t)
    (stopped : t.ending.forget ≠ .returned ()) (same : o.forget = t.ending.forget) :
    LastRun w [g.question s .oemLock [("enable", .bool true)]]
      ⟨o, tried.map (.within .unlock) ++ t.events, t.world⟩
  | failed {w' : σ} {tried : List Event} {g : ActionFailure} {qs : List PromptRequest}
    {t : Trail Event σ Resolution}
    (run : rules.actions rules.ctx.device.unlockStep.actions b w =
      ⟨.raised (.inAction g.id g.cause), tried, w'⟩)
    (killed : g.kind ≠ .killed) (disabled : g.kind ≠ .unlockDisabled)
    (last : GivesUp rules s b g w' qs t) : LastRun w qs (t.after (tried.map (.within .unlock)))

/-- The unlock flow about a lock failure of the step, in a world in which the flow applies: the user is
asked, and then the unlock actions are run once more than they end because unlocking is disabled, or as
often as the budget allows. -/
inductive UnlockFlow (f : ActionFailure) (w : σ) :
    List PromptRequest → Trail Event σ Resolution → Prop
  | declined {w' : σ} {asked : List Event} {d : Decision}
    (asking : ask rules .oemLock f s [("enable", .bool false)] b w = ⟨.returned d, asked, w'⟩)
    (declined : d.resumes = false) :
    UnlockFlow f w [f.question s .oemLock [("enable", .bool false)]]
      ⟨.raised (.aborted "bootloader unlock declined"),
        .line .warning ("Bootloader locked (" ++ f.id ++ "), running unlock flow") :: asked, w'⟩
  | unanswered {t : Trail Event σ Decision} {o : Ending Resolution}
    (asking : ask rules .oemLock f s [("enable", .bool false)] b w = t)
    (stopped : t.ending.forget ≠ .returned ()) (same : o.forget = t.ending.forget) :
    UnlockFlow f w [f.question s .oemLock [("enable", .bool false)]]
      ⟨o, .line .warning ("Bootloader locked (" ++ f.id ++ "), running unlock flow") :: t.events,
        t.world⟩
  | decided {w₁ w₂ : σ} {asked es : List Event} {d : Decision} {gs : List ActionFailure}
    {qs : List PromptRequest} {t : Trail Event σ Resolution}
    (asking : ask rules .oemLock f s [("enable", .bool false)] b w = ⟨.returned d, asked, w₁⟩)
    (resumed : d.resumes) (retries : Retries rules s b w₁ gs es w₂) (budget : gs.length < b)
    (last : LastRun rules s b w₂ qs t) :
    UnlockFlow f w (f.question s .oemLock [("enable", .bool false)] ::
        (gs.map fun g => g.question s .oemLock [("enable", .bool true)]) ++ qs)
      (t.after (.line .warning ("Bootloader locked (" ++ f.id ++ "), running unlock flow") ::
        (asked ++ .entered .unlock :: es)))
  | spent {w₁ w₂ : σ} {asked es : List Event} {d : Decision} {gs : List ActionFailure}
    (asking : ask rules .oemLock f s [("enable", .bool false)] b w = ⟨.returned d, asked, w₁⟩)
    (resumed : d.resumes) (retries : Retries rules s b w₁ gs es w₂) (budget : gs.length = b) :
    UnlockFlow f w (f.question s .oemLock [("enable", .bool false)] ::
        gs.map fun g => g.question s .oemLock [("enable", .bool true)])
      ⟨.unfinished, .line .warning ("Bootloader locked (" ++ f.id ++ "), running unlock flow") ::
        (asked ++ .entered .unlock :: es), w₂⟩

end

/-! ## The unlock flow goes in one of these ways -/

section

variable {rules : Rules σ} {s : Step} {b : Nat}

theorem requireResume_of_resumes {d : Decision} (h : d.resumes = true) (message : String) :
    (requireResume d message : Flow σ Unit) = Pure.pure () :=
  if_pos h

theorem requireResume_of_declined {d : Decision} (h : d.resumes = false) (message : String) :
    (requireResume d message : Flow σ Unit) = Run.raise (.aborted message) :=
  if_neg (by simp [h])

theorem generic_putBefore (g : ActionFailure) (w : σ) :
    PutBefore rules s b g w (generic rules g s b w) := by
  unfold generic
  rw [log_bind]
  rcases returns_or_stops (ask rules .error g s []) b w with ⟨d, asked, w', hask⟩ | hstopped
  · rw [bind_of_returned hask]
    cases hchoice : d.choice with
    | retry => simpa [Trail.after, pure_apply] using PutBefore.retried hask hchoice
    | ignore => exact .ignored hask (.inl hchoice)
    | «continue» => exact .ignored hask (.inr hchoice)
    | abort => simpa [Trail.after, raise_apply] using PutBefore.aborted hask hchoice
  · obtain ⟨o, ho, heq⟩ := bind_of_stopped hstopped _
    rw [heq]
    exact .unanswered rfl hstopped ho

/-- What becomes of the step once the unlock actions are not run again. -/
def conclude (rules : Rules σ) (s : Step) : Option ActionFailure → Flow σ Resolution
  | none => do
    Run.emit (.left .unlock)
    return .replay
  | some g => generic rules g s

theorem conclude_none (w : σ) :
    conclude rules s none b w = ⟨.returned .replay, [.left .unlock], w⟩ := rfl

/-- What is done about the failure with which the unlock actions ended, if it is neither a kill nor
that unlocking is disabled. -/
def giveUp (rules : Rules σ) (g : ActionFailure) : Flow σ (Option ActionFailure) :=
  if rules.ctx.device.unlockStep.optional then do
    log .info ("Ignoring failure of optional unlock flow: " ++ g.cause.text)
    return none
  else if !rules.ctx.device.unlockStep.fallback.isEmpty then do
    log .warning ("Unlock flow failed, running its fallback: " ++ g.cause.text)
    Flow.inPart .unlockFallback (rules.actions rules.ctx.device.unlockStep.fallback)
    return none
  else do
    log .warning ("Unlock flow failed: " ++ g.cause.text)
    return some g

theorem giveUp_givesUp (g : ActionFailure) (w : σ) :
    ∃ qs, GivesUp rules s b g w qs ((giveUp rules g >>= conclude rules s) b w) := by
  unfold giveUp
  split
  case isTrue hoptional => exact ⟨[], .optional hoptional⟩
  case isFalse hrequired =>
    have hrequired : rules.ctx.device.unlockStep.optional = false := by simpa using hrequired
    split
    case isTrue hnonempty =>
      have hnonempty : rules.ctx.device.unlockStep.fallback ≠ [] := by simpa using hnonempty
      refine ⟨[], ?_⟩
      simp only [bind_assoc, pure_bind]
      rw [log_bind, bind_apply, Flow.inPart_apply]
      rcases hrun : rules.actions rules.ctx.device.unlockStep.fallback b w with ⟨⟨⟩ | e | _, es, w'⟩
      · simpa [Trail.after, Flow.leaving, conclude_none] using
          GivesUp.replaced hrequired hnonempty hrun
      · simpa [Trail.after, Flow.leaving] using
          GivesUp.escaped (o := .raised e) hrequired hnonempty hrun (by simp) rfl
      · simpa [Trail.after, Flow.leaving] using
          GivesUp.escaped (o := .unfinished) hrequired hnonempty hrun (by simp) rfl
    case isFalse hempty =>
      have hempty : rules.ctx.device.unlockStep.fallback = [] := by simpa using hempty
      exact ⟨_, .asked hrequired hempty (generic_putBefore g w)⟩

/-- What is done about any failure with which the unlock actions ended. -/
def afterFailure (rules : Rules σ) (s : Step) (g : ActionFailure) :
    Flow σ (Unit ⊕ Option ActionFailure) :=
  if g.kind = .killed then Run.raise g.cause
  else if g.kind = .unlockDisabled then do
    requireResume (← ask rules .oemLock g s [("enable", .bool true)])
      "OEM unlocking was not enabled"
    return .inl ()
  else return .inr (← giveUp rules g)

theorem unlockRound_eq : unlockRound rules s =
    Flow.failureOf (Flow.inside .unlock (rules.actions rules.ctx.device.unlockStep.actions)) >>=
      fun
      | none => return .inr none
      | some (id, cause) => afterFailure rules s ⟨id, cause⟩ := by
  unfold unlockRound afterFailure giveUp
  refine congrArg (Flow.failureOf _ >>= ·) (funext fun failure? => ?_)
  rcases failure? with _ | ⟨id, cause⟩
  · rfl
  · -- Up to the last three rules the two are the same; these were taken out of the round.
    dsimp only
    split
    · rfl
    · split
      · rfl
      · split
        · simp
        · split <;> simp

/-- What goes on after a run of the unlock actions, if it is the last one. -/
def Finishing (rules : Rules σ) (s : Step)
    (next : Unit ⊕ Option ActionFailure → Flow σ Resolution) : Prop :=
  ∀ r, next (.inr r) = conclude rules s r

/-- A failure of the unlock actions leads to the next run of them, or they are not run again. -/
theorem afterFailure_cases {w w₁ : σ} {tried : List Event} {g : ActionFailure}
    (hrun : rules.actions rules.ctx.device.unlockStep.actions b w =
      ⟨.raised (.inAction g.id g.cause), tried, w₁⟩) :
    (∃ asked w', Retry rules s b w g (tried.map (.within .unlock) ++ asked) w' ∧
      afterFailure rules s g b w₁ = ⟨.returned (.inl ()), asked, w'⟩) ∨
    ∀ next, Finishing rules s next → ∃ qs, LastRun rules s b w qs
      (((afterFailure rules s g >>= next) b w₁).after (tried.map (.within .unlock))) := by
  unfold afterFailure
  -- In the order of the rules: a kill, unlocking that is disabled, and any other failure.
  by_cases hkilled : g.kind = .killed
  · refine .inr fun next _ => ⟨[], ?_⟩
    rw [if_pos hkilled]
    simpa [Trail.after, bind_apply, raise_apply] using LastRun.killed hrun hkilled
  rw [if_neg hkilled]
  by_cases hdisabled : g.kind = .unlockDisabled
  · rw [if_pos hdisabled]
    rcases returns_or_stops (ask rules .oemLock g s [("enable", .bool true)]) b w₁ with
      ⟨d, asked, w', hask⟩ | hstopped
    · cases hresumes : d.resumes with
      | true =>
        refine .inl ⟨asked, w', .mk hrun hdisabled hask hresumes, ?_⟩
        rw [bind_of_returned hask, requireResume_of_resumes hresumes]
        simp [Trail.after, pure_apply]
      | false =>
        refine .inr fun next _ => ⟨[g.question s .oemLock [("enable", .bool true)]], ?_⟩
        rw [bind_assoc, bind_of_returned hask, requireResume_of_declined hresumes]
        simpa [Trail.after, raise_bind, raise_apply] using
          LastRun.declined hrun hdisabled hask hresumes
    · refine .inr fun next _ => ⟨[g.question s .oemLock [("enable", .bool true)]], ?_⟩
      rw [bind_assoc]
      obtain ⟨o, ho, heq⟩ := bind_of_stopped hstopped _
      rw [heq]
      exact .unanswered hrun hdisabled rfl hstopped ho
  · rw [if_neg hdisabled]
    refine .inr fun next hnext => ?_
    obtain ⟨qs, hgive⟩ := giveUp_givesUp g w₁
    refine ⟨qs, ?_⟩
    rw [bind_assoc]
    simp only [pure_bind]
    rw [show (fun r => next (.inr r)) = conclude rules s from funext hnext]
    exact .failed hrun hkilled hdisabled hgive

/-- A run of the unlock actions leads to the next one, or it is the last one. -/
theorem unlockRound_cases (w : σ) :
    (∃ g es w', Retry rules s b w g es w' ∧
      unlockRound rules s b w = ⟨.returned (.inl ()), es, w'⟩) ∨
    ∀ next, Finishing rules s next →
      ∃ qs, LastRun rules s b w qs ((unlockRound rules s >>= next) b w) := by
  rw [unlockRound_eq]
  rcases hrun : rules.actions rules.ctx.device.unlockStep.actions b w with ⟨_ | e | _, tried, w₁⟩
  case returned =>
    have htry := Flow.failureOf_of_returned (Flow.inside_apply hrun .unlock)
    refine .inr fun next hnext => ⟨[], ?_⟩
    rw [bind_assoc, bind_of_returned htry, pure_bind, hnext]
    exact .through hrun
  case unfinished =>
    have htry := Flow.failureOf_of_unfinished (Flow.inside_apply hrun .unlock)
    refine .inr fun next _ => ⟨[], ?_⟩
    rw [bind_assoc, bind_apply, htry]
    exact .passed hrun (by simp) (by simp) rfl
  case raised =>
    by_cases hfailure : ∃ g : ActionFailure, e = .inAction g.id g.cause
    · obtain ⟨g, rfl⟩ := hfailure
      have htry := Flow.failureOf_of_failed (Flow.inside_apply hrun .unlock)
      rcases afterFailure_cases hrun with ⟨asked, w', hretry, heq⟩ | hlast
      · refine .inl ⟨g, _, w', hretry, ?_⟩
        rw [bind_of_returned htry]
        exact congrArg (Trail.after · _) heq
      · refine .inr fun next hnext => ?_
        obtain ⟨qs, hlast⟩ := hlast next hnext
        refine ⟨qs, ?_⟩
        rw [bind_assoc, bind_of_returned htry]
        exact hlast
    · have hne (id : String) (c : Fault) : e ≠ .inAction id c := fun h => hfailure ⟨⟨id, c⟩, h⟩
      have htry := Flow.failureOf_of_raised (Flow.inside_apply hrun .unlock) hne
      refine .inr fun next _ => ⟨[], ?_⟩
      rw [bind_assoc, bind_apply, htry]
      exact .passed hrun (by simp) (by simpa using hne) rfl

/-- The runs of the unlock actions, at most `n` of them, and what becomes of the step. -/
def unlockRounds (rules : Rules σ) (s : Step) (n : Nat) : Flow σ Resolution :=
  Run.repeatFor (fun _ => unlockRound rules s) n () >>= conclude rules s

theorem unlockRounds_succ (n : Nat) : unlockRounds rules s (n + 1) = unlockRound rules s >>= fun
    | .inl _ => unlockRounds rules s n
    | .inr r => conclude rules s r := by
  unfold unlockRounds
  rw [Run.repeatFor, bind_assoc]
  refine congrArg (unlockRound rules s >>= ·) (funext fun next => ?_)
  cases next <;> rfl

theorem unlockRounds_cases (n : Nat) (w : σ) :
    (∃ gs es w' qs t, Retries rules s b w gs es w' ∧ gs.length < n ∧ LastRun rules s b w' qs t ∧
      unlockRounds rules s n b w = t.after es) ∨
    ∃ gs es w', Retries rules s b w gs es w' ∧ gs.length = n ∧
      unlockRounds rules s n b w = ⟨.unfinished, es, w'⟩ := by
  induction n generalizing w with
  | zero => exact .inr ⟨[], [], w, .none, rfl, rfl⟩
  | succ n ih =>
    rw [unlockRounds_succ]
    rcases unlockRound_cases w with ⟨g, es, w', hretry, hround⟩ | hlast
    · -- One more retry, before those that are found from where it ended.
      rw [bind_of_returned hround]
      dsimp only
      rcases ih w' with ⟨gs, es', w'', qs, t, hretries, hlength, hlast, heq⟩ |
        ⟨gs, es', w'', hretries, hlength, heq⟩
      · refine .inl ⟨g :: gs, es ++ es', w'', qs, t, .again hretry hretries, by simpa, hlast, ?_⟩
        rw [heq, Trail.after_after]
      · refine .inr ⟨g :: gs, es ++ es', w'', .again hretry hretries, by simpa, ?_⟩
        rw [heq]
        rfl
    · obtain ⟨qs, hlast⟩ := hlast
        (fun
          | .inl _ => unlockRounds rules s n
          | .inr r => conclude rules s r) fun _ => rfl
      exact .inl ⟨[], [], w, qs, _, .none, Nat.succ_pos n, hlast, rfl⟩

theorem unlock_eq (f : ActionFailure)
    (happlies : Condition.evaluate rules.ctx.device.unlockStep.condition
      rules.ctx.settings.data = .ok true) :
    unlock rules f s = (do
      log .warning ("Bootloader locked (" ++ f.id ++ "), running unlock flow")
      requireResume (← ask rules .oemLock f s [("enable", .bool false)])
        "bootloader unlock declined"
      Run.emit (.entered .unlock)
      Run.withBudget fun n => unlockRounds rules s n) := by
  unfold unlock runUnlock
  rw [happlies]
  rfl

/-- Recovery about a lock failure goes in one of these ways, where the unlock flow applies. -/
theorem unlock_flow (f : ActionFailure) (w : σ)
    (happlies : Condition.evaluate rules.ctx.device.unlockStep.condition
      rules.ctx.settings.data = .ok true) :
    ∃ qs, UnlockFlow rules s b f w qs (unlock rules f s b w) := by
  rw [unlock_eq f happlies, log_bind]
  rcases returns_or_stops (ask rules .oemLock f s [("enable", .bool false)]) b w with
    ⟨d, asked, w₁, hask⟩ | hstopped
  · rw [bind_of_returned hask]
    cases hresumes : d.resumes with
    | false =>
      rw [requireResume_of_declined hresumes, raise_bind, raise_apply]
      refine ⟨[f.question s .oemLock [("enable", .bool false)]], ?_⟩
      simpa [Trail.after] using UnlockFlow.declined hask hresumes
    | true =>
      rw [requireResume_of_resumes hresumes, pure_bind, bind_of_returned (r := Run.emit _) rfl]
      rcases unlockRounds_cases b w₁ with ⟨gs, es, w₂, qs, t, hretries, hlength, hlast, heq⟩ |
        ⟨gs, es, w₂, hretries, hlength, heq⟩
      · rw [Run.withBudget, heq]
        simp only [Trail.after_after]
        exact ⟨_, .decided hask hresumes hretries hlength hlast⟩
      · rw [Run.withBudget, heq]
        exact ⟨_, .spent hask hresumes hretries hlength⟩
  · obtain ⟨o, ho, heq⟩ := bind_of_stopped hstopped _
    rw [heq]
    exact ⟨_, .unanswered rfl hstopped ho⟩

/-! ## What is asked -/

/-- The questions that recovery puts about a step, among the events of that step. -/
def questions (es : List Event) : List PromptRequest :=
  es.filterMap Event.asks?

theorem questions_append (es es' : List Event) :
    questions (es ++ es') = questions es ++ questions es' :=
  List.filterMap_append

theorem questions_cons_of_none {e : Event} (he : e.asks? = none) (es : List Event) :
    questions (e :: es) = questions es :=
  List.filterMap_cons_none he

theorem questions_within (part : Part) (es : List Event) :
    questions (es.map (.within part)) = [] := by
  unfold questions
  rw [List.filterMap_map]
  exact List.filterMap_eq_nil_iff.mpr fun _ _ => rfl

section

variable (hhost : rules.ctx.host.LeavesAsking)
include hhost

/-- A question of recovery is put once, whatever comes of it. -/
theorem questions_ask {prompt : Prompt} (hprompt : prompt.ofRecovery) {f : ActionFailure}
    {data : List (String × Value)} {w : σ} {t : Trail Event σ Decision}
    (h : ask rules prompt f s data b w = t) : questions t.events = [f.question s prompt data] := by
  have asked {es : List Signal} (h : Signal.Asked (f.question s prompt data) es)
      {ending : List Event} (hending : questions ending = []) :
      questions (es.map .recovery ++ ending) = [f.question s prompt data] := by
    obtain ⟨line, rest, rfl, hrest⟩ := h
    have hsilent : questions (rest.map Event.recovery) = [] := by
      unfold questions
      rw [List.filterMap_map]
      exact List.filterMap_eq_nil_iff.mpr hrest
    have hquestion : (Event.recovery (.prompted (f.question s prompt data))).asks? =
        some (f.question s prompt data) := if_pos hprompt
    rw [questions_append, hending, List.append_nil, List.map_cons, List.map_cons,
      questions_cons_of_none rfl, questions, List.filterMap_cons_some hquestion]
    exact congrArg _ hsilent
  have hask : (ask rules prompt f s data).Ensures
      fun es _ => questions es = [f.question s prompt data] := by
    refine ask_ensures (Host.ask_asked hhost f s prompt data) (fun es d h => asked h rfl)
      (fun es e h => asked h rfl) fun es h => ?_
    rw [← List.append_nil (es.map Event.recovery)]
    exact asked h rfl
  rw [← h]
  exact hask b w

theorem Retry.asks {w w' : σ} {g : ActionFailure} {es : List Event}
    (h : Retry rules s b w g es w') :
    questions es = [g.question s .oemLock [("enable", .bool true)]] := by
  obtain ⟨-, -, hask, -⟩ := h
  rw [questions_append, questions_within]
  exact questions_ask hhost rfl hask

theorem Retries.asks {w w' : σ} {gs : List ActionFailure} {es : List Event}
    (h : Retries rules s b w gs es w') :
    questions es = gs.map fun g => g.question s .oemLock [("enable", .bool true)] := by
  induction h with
  | none => rfl
  | again first more ih =>
    rw [questions_append, first.asks hhost, ih]
    rfl

theorem PutBefore.asks {w : σ} {g : ActionFailure} {t : Trail Event σ Resolution}
    (h : PutBefore rules s b g w t) : questions t.events = [g.question s .error []] := by
  cases h with
  | retried asking | aborted asking | unanswered asking =>
    exact (questions_cons_of_none rfl _).trans (questions_ask hhost rfl asking)
  | ignored asking =>
    rw [questions_cons_of_none rfl, questions_append]
    exact (List.append_nil _).trans (questions_ask hhost rfl asking)

theorem GivesUp.asks {w : σ} {g : ActionFailure} {qs : List PromptRequest}
    {t : Trail Event σ Resolution} (h : GivesUp rules s b g w qs t) : questions t.events = qs := by
  cases h with
  | optional => rfl
  | replaced =>
    rw [questions_cons_of_none rfl, questions_cons_of_none rfl, questions_append, questions_within]
    rfl
  | escaped =>
    rw [questions_cons_of_none rfl, questions_cons_of_none rfl, questions_within]
  | asked _ _ put => exact (questions_cons_of_none rfl _).trans (put.asks hhost)

theorem LastRun.asks {w : σ} {qs : List PromptRequest} {t : Trail Event σ Resolution}
    (h : LastRun rules s b w qs t) : questions t.events = qs := by
  cases h with
  | through =>
    rw [questions_append, questions_within]
    rfl
  | passed | killed => exact questions_within _ _
  | declined _ _ asking | unanswered _ _ asking =>
    rw [questions_append, questions_within]
    exact questions_ask hhost rfl asking
  | failed _ _ _ last =>
    rw [Trail.after_events, questions_append, questions_within, last.asks hhost]
    rfl

/-- The user is asked once whether to unlock, once for each run that ended because unlocking is disabled,
and once about the last failure, if nothing else is done about it. -/
theorem UnlockFlow.asks {f : ActionFailure} {w : σ} {qs : List PromptRequest}
    {t : Trail Event σ Resolution} (h : UnlockFlow rules s b f w qs t) :
    questions t.events = qs := by
  cases h with
  | declined asking | unanswered asking =>
    exact (questions_cons_of_none rfl _).trans (questions_ask hhost rfl asking)
  | decided asking _ retries _ last =>
    rw [Trail.after_events, questions_append, last.asks hhost, questions_cons_of_none rfl,
      questions_append, questions_cons_of_none rfl, retries.asks hhost,
      questions_ask hhost rfl asking]
    rfl
  | spent asking _ retries =>
    rw [questions_cons_of_none rfl, questions_append, questions_cons_of_none rfl,
      retries.asks hhost]
    exact congrArg (· ++ _) (questions_ask hhost rfl asking)

end

end

/-! ## Lock failures -/

section

variable (rules : Rules σ) {s : Step} {f : ActionFailure} {a : StepAttempt}

theorem handle_of_first_lock (optional : s.optional = false) (fallback : s.fallback = [])
    (lock : f.kind.isLock) (first : a.unlockAttempted = false) :
    handle rules f s a = do
      Run.emit (.failed f.id f.cause)
      let resolution ← unlock rules f s
      return (resolution, { a with unlockAttempted := true }) := by
  unfold handle
  cases hkind : f.kind with
  | bootloaderLocked | unlockDisabled => simp [optional, fallback, first]
  | _ => simp [hkind, FailureKind.isLock] at lock

/-- Once unlocking was tried, a lock failure is like any other. -/
theorem handle_of_later_lock (optional : s.optional = false) (fallback : s.fallback = [])
    (lock : f.kind.isLock) (attempted : a.unlockAttempted) :
    handle rules f s a = do
      Run.emit (.failed f.id f.cause)
      let resolution ← generic rules f s
      return (resolution, a) := by
  unfold handle
  cases hkind : f.kind with
  | bootloaderLocked | unlockDisabled => simp [optional, fallback, attempted]
  | _ => simp [hkind, FailureKind.isLock] at lock

theorem Course.attempted {course : Flow σ Resolution} {a' : StepAttempt}
    (h : Course rules f s a course a') (ha : a.unlockAttempted) : a'.unlockAttempted := by
  cases h with
  | unlock => rfl
  | _ => exact ha

/-- Recovery does not forget that unlocking was tried. -/
theorem handle_attempted (s : Step) (f : ActionFailure) (ha : a.unlockAttempted) :
    (handle rules f s a).Ensures fun _ o => ∀ r a', o = .returned (r, a') → a'.unlockAttempted := by
  obtain ⟨course, a', hcourse, heq⟩ := handle_course rules f s a
  rw [heq]
  refine Ensures.emit_bind (Ensures.bind (Ensures.leaves course) (fun es r _ => Ensures.pure ?_)
    (fun es e _ => by simp) fun es _ => by simp)
  intro r' a'' h
  cases h
  exact hcourse.attempted rules ha

end

end Recovery

namespace Workflow

open Recovery

variable {wf : Workflow σ} {runSteps : List Step → Flow σ Unit} {s : Step}

theorem start_attempted {a : StepAttempt} (ha : a.unlockAttempted) :
    (wf.start runSteps s a).Ensures fun _ o =>
      ∀ a', o = .returned (.inl a') → a'.unlockAttempted := by
  refine Ensures.mono (start_ensures (Ensures.leaves _) (Ensures.leaves _)
    fun f => handle_attempted _ s f ha) fun es o h => ?_
  rintro a' rfl
  cases h with
  | replayed _ _ hr =>
    have hattempted := hr _ _ rfl
    exact hattempted
  | unreached _ ho | broken _ _ ho | unhandled _ _ _ _ ho => exact absurd rfl ho

/-- A start of a step without a stand-in that fails because of a lock, the first time that the step does,
goes on with the unlock flow: it ends as that does, and is replayed if that says so. Later starts of the
step remember that unlocking was tried, and leave a lock failure to the user. -/
theorem start_of_first_lock {b : Nat} {w w₁ w₂ : σ} {text : String} {f : ActionFailure}
    {paused acts : List Event} {a : StepAttempt}
    (h : wf.Fails runSteps s b w text f paused acts w₁ w₂) (optional : s.optional = false)
    (fallback : s.fallback = []) (lock : f.kind.isLock) (first : a.unlockAttempted = false)
    (applies : Condition.evaluate wf.ctx.device.unlockStep.condition
      wf.ctx.settings.data = .ok true) :
    (∃ qs t, UnlockFlow (wf.rules runSteps) s b f w₂ qs t ∧
      wf.start runSteps s a b w = (concluded text { a with unlockAttempted := true } t).after
        (paused ++ .started text :: (acts ++ [.failed f.id f.cause])) ∧
      (wf.ctx.host.LeavesAsking → questions t.events = qs)) ∧
    (∀ a', a'.unlockAttempted →
      (∀ b w a'', (wf.start runSteps s a' b w).ending = .returned (.inl a'') →
        a''.unlockAttempted) ∧
      ∀ f' : ActionFailure, f'.kind.isLock → Recovery.handle (wf.rules runSteps) f' s a' = do
        Run.emit (.failed f'.id f'.cause)
        let resolution ← generic (wf.rules runSteps) f' s
        return (resolution, a')) := by
  refine ⟨?_, fun a' ha' => ⟨fun b w a'' => start_attempted ha' b w a'', fun f' lock' => ?_⟩⟩
  · obtain ⟨qs, hflow⟩ : ∃ qs, UnlockFlow (wf.rules runSteps) s b f w₂ qs
        (unlock (wf.rules runSteps) f s b w₂) := unlock_flow f w₂ applies
    refine ⟨qs, _, hflow, ?_, fun hhost => hflow.asks hhost⟩
    exact start_of_failure h (handle_of_first_lock _ optional fallback lock first)
  · exact handle_of_later_lock _ optional fallback lock' ha'

/-- Unlocking is disabled at first, and then it is not: the unlock actions are run twice. -/
theorem disabled_once_unlocks :
    let unlock : Handler Nat := fun _ _ => do
      let tries ← Run.world fun tries => (tries, tries + 1)
      if tries = 0 then Run.raise (.failure .unlockDisabled "disabled") else return .null
    let plain : Workflow Nat := .plain ⟨.continue, .null⟩
      [("op", some fun _ _ => Run.raise (.failure .bootloaderLocked "locked")),
        ("unlock", some unlock)]
    let wf : Workflow Nat := { plain with ctx := { plain.ctx with device := {
      raw := [], operatingSystems := [], unlockStep := { actions := [.named "t:unlock"] } } } }
    let s : Step := { actions := [.named "t:op"] }
    let f : ActionFailure := ⟨"t:op", .failure .bootloaderLocked "locked"⟩
    let text := "\x7b\"actions\": [\x7b\"t:op\": null\x7d]\x7d"
    let acts := [.dispatched "t" "op" .null, .raised f.cause]
    (∃ qs t, UnlockFlow (wf.rules (wf.runStepsTo 1)) s 2 f 0 qs t ∧
      wf.start (wf.runStepsTo 1) s {} 2 0 = (concluded text { unlockAttempted := true } t).after
        ([] ++ .started text :: (acts ++ [.failed f.id f.cause])) ∧ questions t.events = qs) ∧
    (wf.start (wf.runStepsTo 1) s {} 2 0).ending =
      .returned (.inl { unlockAttempted := true, replays := 1 }) ∧
    (wf.start (wf.runStepsTo 1) s {} 2 0).world = 2 ∧
    questions (wf.start (wf.runStepsTo 1) s {} 2 0).events =
      [f.question s .oemLock [("enable", .bool false)],
        ActionFailure.question ⟨"t:unlock", .failure .unlockDisabled "disabled"⟩ s .oemLock
          [("enable", .bool true)]] := by
  intro unlock plain wf s f text acts
  have hfails : wf.Fails (wf.runStepsTo 1) s 2 0 text f [] acts 0 0 :=
    ⟨rfl, rfl, by cbv, by cbv⟩
  have hhost : wf.ctx.host.LeavesAsking :=
    ⟨fun _ => Ensures.pure (by simp), Ensures.pure (by simp)⟩
  obtain ⟨⟨qs, t, hflow, hstart, hasks⟩, -⟩ :=
    start_of_first_lock (a := {}) hfails rfl rfl rfl rfl rfl
  refine ⟨⟨qs, t, hflow, hstart, hasks hhost⟩, ?_, ?_, ?_⟩
  · cbv
  · cbv
  · cbv

end Workflow

end Reflash
