import Reflash.Proofs.Recovery

set_option autoImplicit false

/-! # What recovery asks about

Recovery puts its questions about failures that happened, and each question is one for failures of
that kind (`Recovery.Fits`, `Recovery.FitsUnlock`). A question names the failure that recovery was
asked about, also where an automatic reconnection failed in between; only after the unlock flow was
entered and has failed itself does a question name the failure of that flow (`Recovery.Asks`).

Where a question stands is said with the events before it (`EachAfter`), so what is known of it is
kept when a run goes on with another one. -/

namespace Reflash

open Run

variable {ε σ α β : Type}

/-! ## Events with what is before them -/

/-- Every event stands where `T` says, given the events before it. -/
def EachAfter (T : List ε → ε → Prop) (es : List ε) : Prop :=
  ∀ before e after, es = before ++ e :: after → T before e

namespace EachAfter

variable {T T' : List ε → ε → Prop} {es es' : List ε}

theorem nil : EachAfter T [] := by
  intro before e after h
  cases before <;> cases h

theorem mono (h : EachAfter T es) (hT : ∀ before e, T before e → T' before e) : EachAfter T' es :=
  fun before e after heq => hT before e (h before e after heq)

theorem of_forall (h : ∀ e ∈ es, ∀ before, T before e) : EachAfter T es := by
  intro before e after heq
  exact h e (by simp [heq]) before

/-- The events of the second part stand after those of the first one. -/
theorem append (h : EachAfter T es) (h' : EachAfter (fun before => T (es ++ before)) es') :
    EachAfter T (es ++ es') := by
  intro before e after heq
  rcases List.append_eq_append_iff.mp heq with ⟨own, rfl, hown⟩ | ⟨rest, rfl, hrest⟩
  · exact h' own e after hown
  · cases rest with
    | nil =>
      have hfirst := h' [] e after hrest.symm
      simpa using hfirst
    | cons e' rest =>
      obtain ⟨rfl, -⟩ := List.cons.inj hrest
      exact h before e rest rfl

theorem cons {e : ε} (he : T [] e) (h : EachAfter (fun before => T (e :: before)) es) :
    EachAfter T (e :: es) := by
  have first : EachAfter T [e] := by
    intro before e' after heq
    cases before with
    | nil =>
      cases heq
      exact he
    | cons _ before => cases before <;> cases heq
  exact append first h

/-- Every event is found again where the events are renamed. -/
theorem map {ε' : Type} {T : List ε' → ε' → Prop} (f : ε → ε')
    (h : EachAfter (fun before e => T (before.map f) (f e)) es) : EachAfter T (es.map f) := by
  intro before e after heq
  obtain ⟨before', rest, rfl, rfl, hrest⟩ := List.map_eq_append_iff.mp heq
  obtain ⟨e', after', rfl, rfl, -⟩ := List.map_eq_cons_iff.mp hrest
  exact h before' e' after' rfl

end EachAfter

/-! ## Questions -/

/-- Whether a prompt is one of recovery. -/
def Prompt.ofRecovery : Prompt → Bool
  | lowPower | oemLock | connectionLost | error => true
  | _ => false

/-- The question of recovery that a signal is, if it is one. -/
def Signal.question? : Signal → Option PromptRequest
  | .prompted q => if q.prompt.ofRecovery then some q else none
  | _ => none

theorem Signal.eq_of_question? {q q' : PromptRequest} (h : (prompted q).question? = some q') :
    q' = q := by
  simp only [question?, Option.ite_none_right_eq_some, Option.some.injEq] at h
  exact h.2.symm

namespace Event

/-- The question that recovery puts about a step, among the events of that step. -/
def asks? : Event → Option PromptRequest
  | recovery s => s.question?
  | _ => none

/-- The question that recovery puts about a step, at whatever depth. -/
def question? : Event → Option PromptRequest
  | within _ e => e.question?
  | e => e.asks?

/-- The event is one that recovery leaves once it knows what failed. -/
def OfCourse : Event → Prop
  | recovery _ | answered .. | unanswered .. => True
  | entered part | left part | within part _ => part ≠ .substeps
  | _ => False

/-- The event is a line of the record that recovery writes. -/
def IsLine (e : Event) : Prop :=
  ∃ line, e = recovery (.logged line)

theorem IsLine.asks? {e : Event} (h : e.IsLine) : e.asks? = none := by
  obtain ⟨line, rfl⟩ := h
  rfl

theorem OfAction.asks? {e : Event} (h : e.OfAction) : e.asks? = none := by
  cases e <;> first | rfl | cases h

end Event

/-- The shell leaves the questions of recovery to recovery, while it is asked and while it waits. -/
structure Host.LeavesAsking (host : Host σ) : Prop where
  decide : ∀ request, (host.decide request).Emits fun s => s.question? = none
  pause : host.pause.Emits fun s => s.question? = none

/-- A question about a failure of a step. -/
def ActionFailure.question (f : ActionFailure) (s : Step) (prompt : Prompt)
    (data : List (String × Value)) : PromptRequest where
  prompt
  data := data.map fun (name, v) => (.str name, v)
  action := some f.id
  step := some s.raw
  cause := some f.cause.text

/-- Whether a failure says that the bootloader is locked, or may not be unlocked. -/
def FailureKind.isLock : FailureKind → Bool
  | bootloaderLocked | unlockDisabled => true
  | _ => false

/-- Whether a failure says that the device is lost, offline or does not trust this computer. -/
def FailureKind.isLoss : FailureKind → Bool
  | noDevice | deviceOffline | unauthorized => true
  | _ => false

namespace Recovery

/-- The questions about the failure of one of the step's own actions, by the kind of the failure.
`unlocked` says whether the unlock flow was run for the step before. -/
inductive Fits (s : Step) (unlocked : Prop) :
    FailureKind → Prompt → List (String × Value) → Prop
  | lowPower : Fits s unlocked .lowBattery .lowPower []
  | oemLock {kind : FailureKind} (lock : kind.isLock) :
    Fits s unlocked kind .oemLock [("enable", .bool false)]
  | connectionLost {kind : FailureKind} (loss : kind.isLoss) :
    Fits s unlocked kind .connectionLost [("resumable", .bool s.resumable)]
  | error {kind : FailureKind} (killed : kind ≠ .killed) (battery : kind ≠ .lowBattery)
    (loss : kind.isLoss = false) (lock : kind.isLock → unlocked) : Fits s unlocked kind .error []

/-- The questions about the failure of the unlock flow, by the kind of the failure. -/
inductive FitsUnlock : FailureKind → Prompt → List (String × Value) → Prop
  | oemLock : FitsUnlock .unlockDisabled .oemLock [("enable", .bool true)]
  | error {kind : FailureKind} (killed : kind ≠ .killed) (disabled : kind ≠ .unlockDisabled) :
    FitsUnlock kind .error []

/-- The actions of the unlock flow ended with the failure `f`, and since then only lines were
written to the record. Before, recovery was at work. -/
inductive UnlockFailed (rules : Rules σ) (f : ActionFailure) : List Event → Prop
  | mk {before tried lines : List Event} (course : ∀ e ∈ before, e.OfCourse)
    (failed : (rules.actions rules.ctx.device.unlockStep.actions).Leaves tried
      (.raised (.inAction f.id f.cause)))
    (recorded : ∀ e ∈ lines, e.IsLine) :
    UnlockFailed rules f (before ++ (tried.map (.within .unlock) ++ lines))

/-- A question that recovery puts once it was asked about the failure `f` of the step, after the
events that it left before. -/
inductive Asks (rules : Rules σ) (s : Step) (unlocked : Prop) (f : ActionFailure) :
    List Event → PromptRequest → Prop
  | ofStep {mid : List Event} {prompt : Prompt} {data : List (String × Value)}
    (course : ∀ e ∈ mid, e.OfCourse) (fits : Fits s unlocked f.kind prompt data) :
    Asks rules s unlocked f (.failed f.id f.cause :: mid) (f.question s prompt data)
  | ofUnlock {mid : List Event} {f' : ActionFailure} {prompt : Prompt}
    {data : List (String × Value)} (lock : f.kind.isLock) (entered : .entered .unlock ∈ mid)
    (failed : UnlockFailed rules f' mid) (fits : FitsUnlock f'.kind prompt data) :
    Asks rules s unlocked f (.failed f.id f.cause :: mid) (f'.question s prompt data)

/-! ## Single questions -/

theorem ofFields_asked (data : List (String × Value)) :
    (if (Value.ofFields data).truth then (Value.ofFields data).asMapping else .ok []) =
      .ok (data.map fun (name, v) => (.str name, v)) := by
  cases data with
  | nil => rfl
  | cons entry data => rfl

end Recovery

/-- What a question leaves: a line, the question, and signals among which there is none. -/
def Signal.Asked (request : PromptRequest) (es : List Signal) : Prop :=
  ∃ line rest, es = .logged line :: .prompted request :: rest ∧ ∀ s ∈ rest, s.question? = none

theorem Host.ask_asked {host : Host σ} (hhost : host.LeavesAsking) (f : ActionFailure) (s : Step)
    (prompt : Prompt) (data : List (String × Value)) :
    (host.ask prompt (.ofFields data) (some f.id) (some s.raw) (some f.cause.text)).Ensures
      fun es _ => Signal.Asked (f.question s prompt data) es := by
  unfold Host.ask
  rw [Recovery.ofFields_asked]
  refine Ensures.ofFallible_bind (fun entries hentries => ?_) fun e h => by cases h
  cases hentries
  refine Ensures.emit_bind (Ensures.emit_bind ?_)
  -- Whatever comes of the question, it is not put again.
  refine Ensures.mono (P := fun es _ => ∀ s ∈ es, s.question? = none) ?_
    fun es _ h => ⟨_, _, rfl, h⟩
  refine Emits.bind (Emits.rescue (hhost.decide _) fun e => ?_) fun d => ?_
  · split <;> exact Ensures.raise (by simp)
  · exact Emits.bind (Emits.emit rfl) fun _ => Ensures.pure (by simp)

namespace Recovery

variable {rules : Rules σ} {s : Step}

/-- Recovery puts one question at a time, with nothing but lines before it. -/
theorem ask_asks (hhost : rules.ctx.host.LeavesAsking) (prompt : Prompt) (f : ActionFailure)
    (data : List (String × Value)) :
    (ask rules prompt f s data).Ensures fun es _ =>
      (∀ e ∈ es, e.OfCourse) ∧ EachAfter (fun before e => ∀ q, e.asks? = some q →
        (∀ e ∈ before, e.IsLine) ∧ q = f.question s prompt data) es := by
  have asked {es : List Signal} (h : Signal.Asked (f.question s prompt data) es)
      {ending : List Event} (hending : ∀ e ∈ ending, e.OfCourse ∧ e.asks? = none) :
      (∀ e ∈ es.map Event.recovery ++ ending, e.OfCourse) ∧
        EachAfter (fun before e => ∀ q, e.asks? = some q →
          (∀ e ∈ before, e.IsLine) ∧ q = f.question s prompt data)
          (es.map Event.recovery ++ ending) := by
    obtain ⟨line, rest, rfl, hrest⟩ := h
    refine ⟨?_, ?_⟩
    · intro e he
      rcases List.mem_append.mp he with he | he
      · obtain ⟨signal, -, rfl⟩ := List.mem_map.mp he
        trivial
      · exact (hending e he).1
    · refine EachAfter.cons (fun q hq => by cases hq) (EachAfter.cons (fun q hq => ?_) ?_)
      · -- This is the question; before it there is the line that it is waited for.
        have hline : Event.IsLine (.recovery (.logged line)) := ⟨line, rfl⟩
        exact ⟨by simpa using hline, Signal.eq_of_question? hq⟩
      · refine EachAfter.of_forall fun e he before q hq => ?_
        rcases List.mem_append.mp he with he | he
        · obtain ⟨signal, hsignal, rfl⟩ := List.mem_map.mp he
          cases (hrest signal hsignal).symm.trans hq
        · cases (hending e he).2.symm.trans hq
  refine ask_ensures (Host.ask_asked hhost f s prompt data) (fun es d h => asked h ?_)
    (fun es e h => asked h ?_) fun es h => ?_
  · simp [Event.OfCourse, Event.asks?]
  · simp [Event.OfCourse, Event.asks?]
  · rw [← List.append_nil (es.map Event.recovery)]
    exact asked h (by simp)

/-! ## Questions about the step's own failure -/

/-- The event is one of recovery, and if it is a question, then a fitting one about the failure. -/
def Concerns (s : Step) (unlocked : Prop) (f : ActionFailure) (e : Event) : Prop :=
  e.OfCourse ∧ ∀ q, e.asks? = some q →
    ∃ prompt data, Fits s unlocked f.kind prompt data ∧ q = f.question s prompt data

theorem Concerns.silent {unlocked : Prop} {f : ActionFailure} {e : Event} (h : e.OfCourse)
    (hq : e.asks? = none) : Concerns s unlocked f e := by
  refine ⟨h, fun q hsome => ?_⟩
  cases hq.symm.trans hsome

theorem log_lines (level : Level) (message : String) :
    (log level message : Flow σ Unit).Emits Event.IsLine :=
  Emits.emit ⟨_, rfl⟩

theorem requireResume_emits (P : Event → Prop) (d : Decision) (message : String) :
    (requireResume d message : Flow σ Unit).Emits P := by
  unfold requireResume
  split
  · exact Ensures.pure (by simp)
  · exact Ensures.raise (by simp)

section

variable (hhost : rules.ctx.host.LeavesAsking) {unlocked : Prop} {f : ActionFailure}

theorem log_concerns (level : Level) (message : String) :
    (log level message : Flow σ Unit).Emits (Concerns s unlocked f) :=
  (log_lines level message).mono fun e h => by
    obtain ⟨line, rfl⟩ := h
    exact .silent trivial rfl

include hhost

theorem ask_concerns {prompt : Prompt} {data : List (String × Value)}
    (fits : Fits s unlocked f.kind prompt data) :
    (ask rules prompt f s data).Emits (Concerns s unlocked f) := by
  refine (ask_asks hhost prompt f data).mono fun es _ ⟨hcourse, hasks⟩ e he => ?_
  refine ⟨hcourse e he, fun q hq => ?_⟩
  obtain ⟨before, after, rfl⟩ := List.append_of_mem he
  exact ⟨prompt, data, fits, (hasks before e after rfl q hq).2⟩

theorem generic_concerns (fits : Fits s unlocked f.kind .error []) :
    (generic rules f s).Emits (Concerns s unlocked f) := by
  refine Emits.bind (log_concerns _ _) fun _ => Emits.bind (ask_concerns hhost fits) fun d => ?_
  split
  · exact Ensures.pure (by simp)
  · exact Emits.bind (log_concerns _ _) fun _ => Ensures.pure (by simp)
  · exact Emits.bind (log_concerns _ _) fun _ => Ensures.pure (by simp)
  · exact Ensures.raise (by simp)

theorem lowBattery_concerns (fits : Fits s unlocked f.kind .lowPower []) :
    (lowBattery rules f s).Emits (Concerns s unlocked f) :=
  Emits.bind (log_concerns _ _) fun _ => Emits.bind (ask_concerns hhost fits) fun d =>
    Emits.bind (requireResume_emits _ d _) fun _ => Ensures.pure (by simp)

theorem connectionLost_concerns (loss : f.kind.isLoss) :
    (connectionLost rules f s).Emits (Concerns s unlocked f) :=
  Emits.bind (ask_concerns hhost (.connectionLost loss)) fun d =>
    Emits.bind (requireResume_emits _ d _) fun _ => Ensures.pure (by simp)

/-- The question after a reconnection that failed is about the failure that led to it. -/
theorem reconnect_concerns (loss : f.kind.isLoss) (count : Nat) :
    (reconnect rules f s count).Emits (Concerns s unlocked f) := by
  have reconnecting : (Flow.inPart .reconnect (rules.actions [reconnectAction])).Emits
      (Concerns s unlocked f) :=
    Flow.inPart_emits (.silent (by simp [Event.OfCourse]) rfl)
      (fun _ _ e _ => .silent (by simp [Event.OfCourse]) rfl)
      (.silent (by simp [Event.OfCourse]) rfl)
  have logs (level : Level) (message : String) :
      (log level message : Flow σ Unit).Emits (Concerns s unlocked f) := log_concerns level message
  unfold reconnect Flow.failureOf
  refine Emits.bind (Emits.bind (Emits.attempt reconnecting) fun r => ?_) fun r => ?_
  · split
    · exact Ensures.pure (by simp)
    · exact Ensures.pure (by simp)
    · exact Ensures.raise (by simp)
  · split
    · split
      · exact Ensures.raise (by simp)
      · exact Emits.bind (logs _ _) fun _ => connectionLost_concerns hhost loss
    · exact Emits.bind (logs _ _) fun _ => Ensures.pure (by simp)

end

/-! ## Questions about the unlock flow -/

theorem UnlockFailed.prepend {f : ActionFailure} {es es' : List Event}
    (h : ∀ e ∈ es, e.OfCourse) (h' : UnlockFailed rules f es') :
    UnlockFailed rules f (es ++ es') := by
  obtain ⟨course, failed, recorded⟩ := h'
  rw [← List.append_assoc]
  exact ⟨List.forall_mem_append.mpr ⟨h, course⟩, failed, recorded⟩

theorem UnlockFailed.lines {f : ActionFailure} {es es' : List Event}
    (h : UnlockFailed rules f es) (h' : ∀ e ∈ es', e.IsLine) :
    UnlockFailed rules f (es ++ es') := by
  obtain ⟨course, failed, recorded⟩ := h
  rw [List.append_assoc, List.append_assoc]
  exact ⟨course, failed, List.forall_mem_append.mpr ⟨recorded, h'⟩⟩

/-- A question about the failure of the unlock flow, after the events of that flow. -/
def AsksUnlock (rules : Rules σ) (s : Step) (before : List Event) (q : PromptRequest) : Prop :=
  ∃ f prompt data, UnlockFailed rules f before ∧ FitsUnlock f.kind prompt data ∧
    q = f.question s prompt data

/-- The events of an unlock flow: every question is about a failure of the flow. -/
structure Unlocks (rules : Rules σ) (s : Step) (es : List Event) : Prop where
  course : ∀ e ∈ es, e.OfCourse
  asks : EachAfter (fun before e => ∀ q, e.asks? = some q → AsksUnlock rules s before q) es

theorem Unlocks.silent {es : List Event} (h : ∀ e ∈ es, e.OfCourse ∧ e.asks? = none) :
    Unlocks rules s es where
  course e he := (h e he).1
  asks := .of_forall fun e he _ q hq => by cases (h e he).2.symm.trans hq

theorem Unlocks.lines {es : List Event} (h : ∀ e ∈ es, e.IsLine) : Unlocks rules s es :=
  .silent fun e he => by
    obtain ⟨line, rfl⟩ := h e he
    exact ⟨trivial, rfl⟩

theorem Unlocks.append {es es' : List Event} (h : Unlocks rules s es) (h' : Unlocks rules s es') :
    Unlocks rules s (es ++ es') where
  course := List.forall_mem_append.mpr ⟨h.course, h'.course⟩
  asks := h.asks.append (h'.asks.mono fun before e hasks q hq => by
    obtain ⟨f, prompt, data, hfailed, fits, rfl⟩ := hasks q hq
    exact ⟨f, prompt, data, hfailed.prepend h.course, fits, rfl⟩)

/-- What one run of the unlock flow, or all of them, ensures; a failure that it returns is the last
thing that happened. -/
def UnlocksTo (rules : Rules σ) (s : Step) (failure? : α → Option ActionFailure) (es : List Event)
    (o : Ending α) : Prop :=
  Unlocks rules s es ∧ ∀ a f, o = .returned a → failure? a = some f →
    UnlockFailed rules f es ∧ FitsUnlock f.kind .error []

/-- A course that asks nothing and returns no failure goes on with an unlock flow. -/
theorem UnlocksTo.goOn {failure? : α → Option ActionFailure} {es : List Event}
    {flow : Flow σ β}
    (hflow : flow.Ensures fun es' _ => Unlocks rules s (es ++ es')) {a : α}
    (ha : failure? a = none) :
    (flow >>= fun _ => return a).Ensures fun es' o => UnlocksTo rules s failure? (es ++ es') o := by
  refine Ensures.bind hflow (fun es' _ hes => Ensures.pure ⟨?_, fun a' f ha' hf => ?_⟩)
    (fun es' e hes => ⟨hes, fun a f ha' => by cases ha'⟩)
    fun es' hes => ⟨hes, fun a f ha' => by cases ha'⟩
  · rwa [List.append_nil]
  · cases ha'
    cases ha.symm.trans hf

/-- The failure of one run of the unlock flow that is not to be run again. -/
def roundFailure? : Unit ⊕ Option ActionFailure → Option ActionFailure
  | .inl _ => none
  | .inr f => f

section

variable (hhost : rules.ctx.host.LeavesAsking)
include hhost

theorem ask_unlocks {before : List Event} {f : ActionFailure} {prompt : Prompt}
    {data : List (String × Value)} (h : Unlocks rules s before)
    (hfailed : UnlockFailed rules f before) (fits : FitsUnlock f.kind prompt data) :
    (ask rules prompt f s data).Ensures fun es _ => Unlocks rules s (before ++ es) := by
  refine (ask_asks hhost prompt f data).mono fun es _ ⟨hcourse, hasks⟩ => ⟨?_, ?_⟩
  · exact List.forall_mem_append.mpr ⟨h.course, hcourse⟩
  · refine h.asks.append (hasks.mono fun between e hask q hq => ?_)
    obtain ⟨hlines, rfl⟩ := hask q hq
    exact ⟨f, prompt, data, hfailed.lines hlines, fits, rfl⟩

theorem unlockRound_unlocks :
    (unlockRound rules s).Ensures (UnlocksTo rules s roundFailure?) := by
  have tries : (Flow.inside .unlock (rules.actions rules.ctx.device.unlockStep.actions)).Ensures
      fun es o => ∃ tried, es = tried.map (.within .unlock) ∧
        (rules.actions rules.ctx.device.unlockStep.actions).Leaves tried o :=
    Flow.inside_ensures (Ensures.mono (.leaves _) fun es o h => ⟨es, rfl, h⟩)
  have within (tried : List Event) : Unlocks rules s (tried.map (.within .unlock)) := by
    refine .silent fun e he => ?_
    obtain ⟨e', -, rfl⟩ := List.mem_map.mp he
    exact ⟨by simp [Event.OfCourse], rfl⟩
  refine Flow.failureOf_bind tries (fun es _ h => ?through) (fun es id c h => ?failed)
    (fun es e _ h => ?raised) fun es h => ?unfinished
  case through =>
    obtain ⟨tried, rfl, -⟩ := h
    refine Ensures.pure ⟨by simpa using within tried, fun a f ha hf => ?_⟩
    cases ha
    cases hf
  case raised | unfinished =>
    obtain ⟨tried, rfl, -⟩ := h
    exact ⟨within tried, fun a f ha => by cases ha⟩
  case failed =>
    obtain ⟨tried, rfl, hleaves⟩ := h
    have htried := within tried
    have hfailed : UnlockFailed rules ⟨id, c⟩ (tried.map (.within .unlock)) := by
      have h : UnlockFailed rules ⟨id, c⟩ ([] ++ (tried.map (.within .unlock) ++ [])) :=
        ⟨by simp, hleaves, by simp⟩
      simpa using h
    have logs (level : Level) (message : String) : (log level message : Flow σ Unit).Ensures
        fun es _ => Unlocks rules s (tried.map (.within .unlock) ++ es) :=
      Ensures.mono (log_lines level message) fun _ _ hes => htried.append (.lines hes)
    have fallsBack (as : List Action) : (Flow.inPart .unlockFallback (rules.actions as)).Emits
        fun e => e.OfCourse ∧ e.asks? = none :=
      Flow.inPart_emits (by simp [Event.OfCourse, Event.asks?])
        (fun _ _ _ _ => by simp [Event.OfCourse, Event.asks?])
        (by simp [Event.OfCourse, Event.asks?])
    dsimp only
    split
    · refine Ensures.raise ⟨by simpa using htried, fun a f ha => by cases ha⟩
    next killed =>
    split
    · next disabled =>
      have fits : FitsUnlock (ActionFailure.mk id c).kind .oemLock [("enable", .bool true)] := by
        rw [disabled]
        exact .oemLock
      rw [← bind_assoc]
      refine UnlocksTo.goOn ?_ rfl
      refine Ensures.bind (ask_unlocks hhost htried hfailed fits) (fun es d hes => ?_)
        (fun es e hes => hes) fun es hes => hes
      refine Ensures.mono (requireResume_emits (fun _ => False) d _) fun es' _ hes' => ?_
      rw [List.eq_nil_iff_forall_not_mem.mpr hes', List.append_nil]
      exact hes
    next disabled =>
    split
    · exact UnlocksTo.goOn (logs _ _) rfl
    split
    · rw [← bind_assoc]
      refine UnlocksTo.goOn ?_ rfl
      refine Ensures.bind (log_lines _ _) (fun es _ hes => ?_)
        (fun es e hes => htried.append (.lines hes)) fun es hes => htried.append (.lines hes)
      refine Ensures.mono (fallsBack _) fun es' _ hes' => ?_
      exact htried.append (Unlocks.append (.lines hes) (.silent hes'))
    · refine Ensures.bind (log_lines _ _) (fun es _ hes => Ensures.pure ⟨?_, fun a f ha hf => ?_⟩)
        (fun es e hes => ⟨htried.append (.lines hes), fun a f ha => by cases ha⟩)
        fun es hes => ⟨htried.append (.lines hes), fun a f ha => by cases ha⟩
      · rw [List.append_nil]
        exact htried.append (.lines hes)
      · cases ha
        cases hf
        rw [List.append_nil]
        exact ⟨hfailed.lines hes, .error killed disabled⟩

theorem runUnlock_unlocks : (runUnlock rules s).Ensures (UnlocksTo rules s id) := by
  have spent : UnlocksTo rules s id [] .unfinished :=
    ⟨.lines (by simp), fun a f ha => by cases ha⟩
  refine Ensures.ofFallible_bind (fun applies _ => ?_) fun e _ => ?_
  · split
    · refine Ensures.repeatFrom (Q := fun _ => UnlocksTo rules s id) (fun _ => spent)
        (fun _ => ?_) ()
      refine (unlockRound_unlocks hhost).mono fun es o ⟨hes, hfailed⟩ => ?_
      -- Only a failure of the last run counts, so all that is handed on are the events.
      rcases o with (_ | f) | e | _
      · intro es' o ⟨hes', hfailed'⟩
        refine ⟨hes.append hes', fun a f ha hf => ?_⟩
        obtain ⟨h, fits⟩ := hfailed' a f ha hf
        exact ⟨h.prepend hes.course, fits⟩
      · refine ⟨hes, fun a f' ha hf' => ?_⟩
        cases ha
        exact hfailed _ f' rfl hf'
      · exact ⟨hes, fun a f ha => by cases ha⟩
      · exact ⟨hes, fun a f ha => by cases ha⟩
    · have logs : (log .debug "Skipping unlock flow (condition not met)" : Flow σ Unit).Ensures
          fun es _ => Unlocks rules s ([] ++ es) :=
        Ensures.mono (log_lines _ _) fun _ _ hes => .lines hes
      exact UnlocksTo.goOn logs rfl
  · exact ⟨.lines (by simp), fun a f ha => by cases ha⟩

/-- The failure of the unlock flow is put before the user as it is. -/
theorem generic_unlocks {before : List Event} {f : ActionFailure} (h : Unlocks rules s before)
    (hfailed : UnlockFailed rules f before) (fits : FitsUnlock f.kind .error []) :
    (generic rules f s).Ensures fun es _ => Unlocks rules s (before ++ es) := by
  refine Ensures.bind (log_lines _ _) (fun es _ hes => ?_) (fun es e hes => h.append (.lines hes))
    fun es hes => h.append (.lines hes)
  have hlogged := h.append (.lines hes)
  refine Ensures.bind (Ensures.mono (ask_unlocks hhost hlogged (hfailed.lines hes) fits)
    fun es' _ hes' => by rwa [List.append_assoc] at hes') (fun es' d hes' => ?_)
    (fun es' e hes' => hes') fun es' hes' => hes'
  refine Ensures.mono (P := fun es'' _ => ∀ e ∈ es'', e.IsLine) ?_ fun es'' _ hes'' => ?_
  · split
    · exact Ensures.pure (by simp)
    · exact Emits.bind (log_lines _ _) fun _ => Ensures.pure (by simp)
    · exact Emits.bind (log_lines _ _) fun _ => Ensures.pure (by simp)
    · exact Ensures.raise (by simp)
  · have hended := hes'.append (.lines hes'')
    simpa only [List.append_assoc] using hended

end

/-! ## All courses of recovery -/

/-- What recovery leaves once it knows of a failure: every question is explained by the failure and
by what is before the question. -/
def Explains (rules : Rules σ) (s : Step) (unlocked : Prop) (f : ActionFailure) (es : List Event) :
    Prop :=
  EachAfter (fun before e => ∀ q, e.asks? = some q →
    Asks rules s unlocked f (.failed f.id f.cause :: before) q) es

section

variable {unlocked : Prop} {f : ActionFailure}

theorem Explains.of_concerns {es : List Event} (h : ∀ e ∈ es, Concerns s unlocked f e) :
    Explains rules s unlocked f es := by
  rintro before e after rfl q hq
  obtain ⟨prompt, data, fits, rfl⟩ := (h e (by simp)).2 q hq
  exact .ofStep (fun e' he' => (h e' (by simp [he'])).1) fits

/-- Recovery turned to the unlock flow after what it left before. -/
theorem Explains.enter {es es' : List Event} (lock : f.kind.isLock)
    (h : ∀ e ∈ es, Concerns s unlocked f e) (h' : Unlocks rules s es') :
    Explains rules s unlocked f (es ++ .entered .unlock :: es') := by
  refine EachAfter.append (Explains.of_concerns h) (EachAfter.cons (fun q hq => by cases hq) ?_)
  refine h'.asks.mono fun before e hasks q hq => ?_
  obtain ⟨f', prompt, data, hfailed, fits, rfl⟩ := hasks q hq
  have course : ∀ e ∈ es ++ [.entered .unlock], e.OfCourse :=
    List.forall_mem_append.mpr ⟨fun e he => (h e he).1, by simp [Event.OfCourse]⟩
  have hfailed' : UnlockFailed rules f' (es ++ .entered .unlock :: before) := by
    simpa using hfailed.prepend course
  exact .ofUnlock lock (by simp) hfailed' fits

variable (hhost : rules.ctx.host.LeavesAsking)
include hhost

theorem unlock_explains (lock : f.kind.isLock) :
    (unlock rules f s).Ensures fun es o =>
      Explains rules s unlocked f es ∧ ∀ r, o = .returned r → .entered .unlock ∈ es := by
  have asking (message : String) : (do
      log .warning ("Bootloader locked (" ++ f.id ++ "), running unlock flow")
      requireResume (← ask rules .oemLock f s [("enable", .bool false)]) message :
      Flow σ Unit).Emits (Concerns s unlocked f) :=
    Emits.bind (log_concerns _ _) fun _ => Emits.bind (ask_concerns hhost (.oemLock lock)) fun d =>
      requireResume_emits _ d _
  -- What is done once the question is answered decides what the whole leaves.
  have hbind (tail : Flow σ Resolution) (htail : tail.Ensures fun es _ =>
      ∃ es', es = .entered .unlock :: es' ∧ Unlocks rules s es') :=
    Ensures.bind (Q := fun es o => Explains rules s unlocked f es ∧
      ∀ r, o = .returned r → .entered .unlock ∈ es) (asking "bootloader unlock declined")
    (fun es _ hes => Ensures.mono htail fun es' o h => by
      obtain ⟨es', rfl, hes'⟩ := h
      exact ⟨Explains.enter lock hes hes', fun _ _ => by simp⟩)
    (fun es e hes => ⟨.of_concerns hes, fun r hr => by cases hr⟩)
    fun es hes => ⟨.of_concerns hes, fun r hr => by cases hr⟩
  simp only [bind_assoc] at hbind
  refine hbind _ (Ensures.emit_bind ?_)
  refine Ensures.bind (runUnlock_unlocks hhost) (fun es r h => ?_) (fun es e h => ⟨es, rfl, h.1⟩)
    fun es h => ⟨es, rfl, h.1⟩
  obtain ⟨hes, hfailed⟩ := h
  cases r with
  | none =>
    have hleft : Unlocks rules s [.left .unlock] :=
      .silent (by simp [Event.OfCourse, Event.asks?])
    exact Ensures.emit_bind (Ensures.pure ⟨_, rfl, hes.append hleft⟩)
  | some f' =>
    obtain ⟨h, fits⟩ := hfailed _ f' rfl rfl
    exact (generic_unlocks hhost hes h fits).mono fun es' _ hes' => ⟨_, rfl, hes'⟩

end

/-- What recovery about a failure leaves and returns: nothing is asked about a step that is optional
or has a fallback, and otherwise only what the failure explains; that unlocking was tried is
remembered only if the unlock flow was entered. -/
def Handles (rules : Rules σ) (s : Step) (unlocked : Prop) (f : ActionFailure) (es : List Event)
    (o : Ending (Resolution × StepAttempt)) : Prop :=
  EachAfter (fun before e => ∀ q, e.asks? = some q →
    s.optional = false ∧ s.fallback = [] ∧ Asks rules s unlocked f before q) es ∧
  ∀ r a, o = .returned (r, a) → a.unlockAttempted → unlocked ∨ .entered .unlock ∈ es

section

variable {unlocked : Prop} {f : ActionFailure} {a : StepAttempt}

theorem Handles.of_silent (ha : a.unlockAttempted → unlocked) {flow : Flow σ Unit}
    (hflow : flow.Emits fun e => e.asks? = none) :
    (Run.emit (.failed f.id f.cause) >>= fun _ => flow >>= fun _ =>
      (return (.done, a) : Flow σ _)).Ensures (Handles rules s unlocked f) := by
  have nothing {es : List Event} (hes : ∀ e ∈ es, e.asks? = none) :
      EachAfter (fun before e => ∀ q, e.asks? = some q →
        s.optional = false ∧ s.fallback = [] ∧ Asks rules s unlocked f before q)
        (.failed f.id f.cause :: es) := by
    refine EachAfter.of_forall fun e he before q hq => ?_
    rcases List.mem_cons.mp he with rfl | he
    · cases hq
    · cases (hes e he).symm.trans hq
  refine Ensures.emit_bind (Ensures.bind hflow (fun es _ hes => Ensures.pure ⟨?_, fun r a' h => ?_⟩)
    (fun es e hes => ⟨nothing hes, fun r a' h => by cases h⟩)
    fun es hes => ⟨nothing hes, fun r a' h => by cases h⟩)
  · exact nothing (by simpa using hes)
  · cases h
    exact fun h => .inl (ha h)

/-- A course about a step without a stand-in. -/
theorem Handles.of_explains (optional : s.optional = false) (fallback : s.fallback = [])
    {course : Flow σ Resolution} (hcourse : course.Ensures fun es o =>
      Explains rules s unlocked f es ∧
        ∀ r, o = .returned r → a.unlockAttempted → unlocked ∨ .entered .unlock ∈ es) :
    (Run.emit (.failed f.id f.cause) >>= fun _ => course >>= fun r =>
      (return (r, a) : Flow σ _)).Ensures (Handles rules s unlocked f) := by
  have explained {es : List Event} (hes : Explains rules s unlocked f es) :
      EachAfter (fun before e => ∀ q, e.asks? = some q →
        s.optional = false ∧ s.fallback = [] ∧ Asks rules s unlocked f before q)
        (.failed f.id f.cause :: es) :=
    EachAfter.cons (fun q hq => by cases hq)
      (EachAfter.mono hes fun before e h q hq => ⟨optional, fallback, h q hq⟩)
  refine Ensures.emit_bind (Ensures.bind hcourse
    (fun es r hes => Ensures.pure ⟨?_, fun r' a' h => ?_⟩)
    (fun es e hes => ⟨explained hes.1, fun r a' h => by cases h⟩)
    fun es hes => ⟨explained hes.1, fun r a' h => by cases h⟩)
  · exact explained (by simpa using hes.1)
  · cases h
    intro ha
    exact (hes.2 r rfl ha).imp_right (by simp)

theorem Handles.of_concerns (ha : a.unlockAttempted → unlocked) (optional : s.optional = false)
    (fallback : s.fallback = []) {course : Flow σ Resolution}
    (hcourse : course.Emits (Concerns s unlocked f)) :
    (Run.emit (.failed f.id f.cause) >>= fun _ => course >>= fun r =>
      (return (r, a) : Flow σ _)).Ensures (Handles rules s unlocked f) :=
  .of_explains optional fallback
    (Ensures.mono hcourse fun _ _ hes => ⟨.of_concerns hes, fun _ _ h => .inl (ha h)⟩)

theorem handle_handles (hhost : rules.ctx.host.LeavesAsking) (ha : a.unlockAttempted → unlocked) :
    (handle rules f s a).Ensures (Handles rules s unlocked f) := by
  have logs (level : Level) (message : String) :
      (log level message : Flow σ Unit).Emits fun e => e.asks? = none :=
    (log_lines level message).mono fun _ => Event.IsLine.asks?
  unfold handle
  by_cases killed : f.kind = .killed
  · rw [if_pos killed]
    refine Ensures.emit_bind (Ensures.raise ⟨?_, fun r a' h => by cases h⟩)
    exact EachAfter.of_forall (by simp [Event.asks?])
  rw [if_neg killed]
  cases optional : s.optional with
  | true => exact .of_silent ha (logs _ _)
  | false =>
  by_cases fallback : s.fallback = []
  · -- Nothing stands in for the step, so the kind of the failure decides.
    have unlocking (lock : f.kind.isLock) : (do
        Run.emit (.failed f.id f.cause)
        if a.unlockAttempted then return (← generic rules f s, a)
        else return (← unlock rules f s, { a with unlockAttempted := true }) :
        Flow σ _).Ensures (Handles rules s unlocked f) := by
      split
      · next attempted =>
        refine .of_concerns ha optional fallback (generic_concerns hhost (.error killed ?_ ?_ ?_))
        · intro battery
          simp [battery, FailureKind.isLock] at lock
        · cases hkind : f.kind <;> simp_all [FailureKind.isLock, FailureKind.isLoss]
        · exact fun _ => ha attempted
      · exact .of_explains optional fallback ((unlock_explains hhost lock).mono
          fun _ _ h => ⟨h.1, fun r hr _ => .inr (h.2 r hr)⟩)
    have reconnecting (loss : f.kind.isLoss) : (do
        Run.emit (.failed f.id f.cause)
        if rules.reconnections ≤ a.reconnections then
          log .warning "Maximum automatic reconnection attempts exceeded"
          return (← connectionLost rules f s, a)
        else
          let count := a.reconnections + 1
          return (← reconnect rules f s count, { a with reconnections := count }) :
        Flow σ _).Ensures (Handles rules s unlocked f) := by
      split
      · have h : (_ >>= fun _ => _ : Flow σ (Resolution × StepAttempt)).Ensures
            (Handles rules s unlocked f) := .of_concerns ha optional fallback (Emits.bind
          (log_concerns .warning "Maximum automatic reconnection attempts exceeded")
          fun _ => connectionLost_concerns hhost loss)
        simpa only [bind_assoc] using h
      · exact Handles.of_concerns (a := { a with reconnections := a.reconnections + 1 }) ha optional
          fallback (reconnect_concerns hhost loss _)
    simp only [fallback, List.isEmpty_nil, Bool.not_true, Bool.false_eq_true, if_false]
    split
    · next h =>
      have fits : Fits s unlocked f.kind .lowPower [] := h ▸ .lowPower
      exact .of_concerns ha optional fallback (lowBattery_concerns hhost fits)
    · next h => exact unlocking (h ▸ rfl)
    · next h => exact unlocking (h ▸ rfl)
    · next h => exact .of_concerns ha optional fallback (connectionLost_concerns hhost (h ▸ rfl))
    · next h => exact reconnecting (h ▸ rfl)
    · next h => exact reconnecting (h ▸ rfl)
    · next battery locked disabled lost offline unauthorized =>
      have loss : f.kind.isLoss = false := by
        cases hkind : f.kind <;> simp_all [FailureKind.isLoss]
      have lock : f.kind.isLock = false := by
        cases hkind : f.kind <;> simp_all [FailureKind.isLock]
      have fits : Fits s unlocked f.kind .error [] := .error killed battery loss (by simp [lock])
      exact .of_concerns ha optional fallback (generic_concerns hhost fits)
  · have hnonempty : (!s.fallback.isEmpty) = true := by simpa using fallback
    rw [if_neg (by simp), if_pos hnonempty]
    have replacing : (Flow.inPart .fallback (rules.actions s.fallback)).Emits
        fun e => e.asks? = none :=
      Flow.inPart_emits rfl (fun _ _ _ _ => rfl) rfl
    have h : (_ >>= fun _ => _ : Flow σ (Resolution × StepAttempt)).Ensures
        (Handles rules s unlocked f) := .of_silent ha (Emits.bind
      (logs .warning (f.id ++ " failed, running fallback: " ++ f.cause.text)) fun _ => replacing)
    rwa [bind_assoc] at h

end

end Recovery

end Reflash
