import Reflash.Proofs.Stages

set_option autoImplicit false

/-! # Nothing is done before the user consents

Before the steps of an installation are run, the user is asked up to three questions, those that
the operating system calls for (`Installer.gates`).

`Gated` says what the questions up to some point leave: no step is run, the questions are put in
order, each one before the next is consented to, and nothing is asked after a refusal. It is kept
when more questions follow (`Gated.bind`). What it means for a whole installation is `Consults`. -/

namespace Reflash

open Run

variable {σ α β : Type}

/-! ## What questions leave -/

namespace Stage

/-- The prompt of a question. -/
def asked? : Stage → Option Prompt
  | asked q => some q.prompt
  | _ => none

/-- The prompt of a question that was answered so that the installation can go on. -/
def consent? : Stage → Option Prompt
  | answered prompt d => if d.resumes then some prompt else none
  | _ => none

/-- Whether a question was answered so that the installation cannot go on, or was cancelled. -/
def refuses : Stage → Bool
  | answered _ d => !d.resumes
  | unanswered _ (.cancelled _) => true
  | _ => false

/-- Whether the steps are run. -/
def works : Stage → Bool
  | worked _ => true
  | _ => false

end Stage

/-- The prompts of the questions that were put, in order. -/
def asks (es : List Stage) : List Prompt :=
  es.filterMap Stage.asked?

/-- The prompts of the questions that the user consented to, in order. -/
def consents (es : List Stage) : List Prompt :=
  es.filterMap Stage.consent?

@[simp] theorem asks_append (es es' : List Stage) : asks (es ++ es') = asks es ++ asks es' :=
  List.filterMap_append

@[simp] theorem consents_append (es es' : List Stage) :
    consents (es ++ es') = consents es ++ consents es' :=
  List.filterMap_append

/-- The fault is one that an installation counts as stopped by. -/
def Fault.Stops (c : Fault) : Prop :=
  ∃ message, c = .killed message ∨ c = .aborted message

/-- What the questions up to some point leave, where `prompts` are those that are called for: no
step is run, the questions are put in order, all of them are consented to if the run goes on, and
after a refusal nothing is asked. -/
structure Gated (prompts : List Prompt) (es : List Stage) (o : Ending Unit) : Prop where
  idle : ∀ e ∈ es, e.works = false
  asked : asks es <+: prompts
  consented : o = .returned () → asks es = prompts ∧ consents es = prompts
  quiet : es.Pairwise fun e e' => e.refuses → e'.asked? = none
  stopped : ∀ e ∈ es, e.refuses → ∃ c, o = .raised c ∧ c.Stops

/-- The event is no question, no answer and no step. -/
def Stage.Plain (e : Stage) : Prop :=
  e.works = false ∧ e.asked? = none ∧ e.consent? = none ∧ e.refuses = false

namespace Gated

variable {prompts prompts' : List Prompt} {es es' : List Stage} {o : Ending Unit}

theorem asks_plain (h : ∀ e ∈ es, e.Plain) : asks es = [] :=
  List.filterMap_eq_nil_iff.mpr fun e he => (h e he).2.1

theorem consents_plain (h : ∀ e ∈ es, e.Plain) : consents es = [] :=
  List.filterMap_eq_nil_iff.mpr fun e he => (h e he).2.2.1

theorem of_plain (h : ∀ e ∈ es, e.Plain) : Gated [] es o where
  idle e he := (h e he).1
  asked := by simp [asks_plain h]
  consented _ := ⟨asks_plain h, consents_plain h⟩
  quiet := List.pairwise_of_forall_mem_list fun _ _ e' he' _ => (h e' he').2.1
  stopped e he hr := by simp [(h e he).2.2.2] at hr

/-- More questions follow where all that were put so far are consented to. -/
theorem append (h : Gated prompts es (.returned ())) (h' : Gated prompts' es' o) :
    Gated (prompts ++ prompts') (es ++ es') o where
  idle := List.forall_mem_append.mpr ⟨h.idle, h'.idle⟩
  asked := by
    rw [asks_append, (h.consented rfl).1]
    exact List.prefix_append_right_inj _ |>.mpr h'.asked
  consented ho := by
    obtain ⟨hasks, hconsents⟩ := h.consented rfl
    obtain ⟨hasks', hconsents'⟩ := h'.consented ho
    rw [asks_append, consents_append, hasks, hconsents, hasks', hconsents']
    exact ⟨rfl, rfl⟩
  quiet := by
    refine List.pairwise_append.mpr ⟨h.quiet, h'.quiet, fun e he _ _ hr => ?_⟩
    obtain ⟨c, hc, -⟩ := h.stopped e he hr
    cases hc
  stopped := by
    refine List.forall_mem_append.mpr ⟨fun e he hr => ?_, h'.stopped⟩
    obtain ⟨c, hc, -⟩ := h.stopped e he hr
    cases hc

/-- Where there is no consent, nothing follows. -/
theorem more (h : Gated prompts es o) (ho : o ≠ .returned ()) :
    Gated (prompts ++ prompts') es o where
  idle := h.idle
  asked := h.asked.trans (List.prefix_append ..)
  consented ho' := absurd ho' ho
  quiet := h.quiet
  stopped := h.stopped

theorem bind {r : Staged σ α} {next : α → Staged σ β} (hr : r.Meets (Gated prompts))
    (hnext : ∀ a, (next a).Meets (Gated prompts')) :
    (r >>= next).Meets (Gated (prompts ++ prompts')) :=
  Ensures.bind hr (fun _ a h n w => h.append (hnext a n w)) (fun _ _ h => h.more (by simp))
    fun _ h => h.more (by simp)

theorem pure (a : α) : (Pure.pure a : Staged σ α).Meets (Gated []) :=
  Ensures.pure (of_plain (by simp))

theorem raise (e : Fault) : (Run.raise e : Staged σ α).Meets (Gated prompts) :=
  Ensures.raise (more (of_plain (by simp)) (by simp))

/-- Nothing is asked before. -/
theorem quietly {r : Staged σ α} {next : α → Staged σ β} (hr : r.Meets (Gated []))
    (hnext : ∀ a, (next a).Meets (Gated prompts)) : (r >>= next).Meets (Gated prompts) :=
  bind hr hnext

theorem ofFallible_bind {x : Fallible α} {next : α → Staged σ β}
    (hnext : ∀ a, x = .ok a → (next a).Meets (Gated prompts)) :
    ((liftM x : Staged σ α) >>= next).Meets (Gated prompts) :=
  Ensures.ofFallible_bind hnext fun _ _ => more (of_plain (by simp)) (by simp)

theorem ofFallible (x : Fallible α) : (liftM x : Staged σ α).Meets (Gated []) :=
  Ensures.ofFallible (fun _ _ => of_plain (by simp)) fun _ _ => of_plain (by simp)

theorem ofSession (job : Job σ α) : (Staged.ofSession job).Meets (Gated []) := by
  refine Ensures.mapEvents fun n w => of_plain fun e he => ?_
  obtain ⟨s, -, rfl⟩ := List.mem_map.mp he
  exact ⟨rfl, rfl, rfl, rfl⟩

end Gated

/-! ## The questions of an installation -/

/-- What one question leaves: a line, the question, what the shell does, and how it was answered. -/
inductive AsksOne (prompt : Prompt) : List Stage → Ending Decision → Prop
  | malformed {e : Fault} : AsksOne prompt [] (.raised e)
  | answered {line line' : Signal} {q : PromptRequest} {es : List Signal} {d : Decision}
    (hq : q.prompt = prompt) :
    AsksOne prompt (.session line :: .asked q ::
      (es.map .shell ++ [.answered prompt d, .session line'])) (.returned d)
  | unanswered {line : Signal} {q : PromptRequest} {es : List Signal} {e e' : Fault}
    (hq : q.prompt = prompt) (hc : (Stage.unanswered prompt e).refuses → e'.Stops) :
    AsksOne prompt (.session line :: .asked q :: (es.map .shell ++ [.unanswered prompt e]))
      (.raised e')
  | unfinished {line : Signal} {q : PromptRequest} {es : List Signal} (hq : q.prompt = prompt) :
    AsksOne prompt (.session line :: .asked q :: es.map .shell) .unfinished

theorem Host.askStaged_asksOne (host : Host σ) (prompt : Prompt) (data : Value) :
    (host.askStaged prompt data).Ensures (AsksOne prompt) := by
  refine Ensures.ofFallible_bind (fun data _ => Ensures.emit_bind (Ensures.emit_bind ?_))
    fun _ _ => .malformed
  have deciding : ((host.decide { prompt, data }).mapEvents Stage.shell).Ensures fun es _ =>
      ∃ ss : List Signal, es = ss.map .shell :=
    Ensures.mapEvents fun _ _ => ⟨_, rfl⟩
  -- Without an answer nothing follows, so what is left by then is all that the question leaves.
  refine Ensures.bind
    (P := fun es o => (∀ d, o = .returned d → ∃ ss : List Signal, es = ss.map .shell) ∧
      ((∀ d, o ≠ .returned d) → ∀ line : Signal,
        AsksOne prompt (.session line :: .asked { prompt, data } :: es) o))
    ?asking (fun es d h => ?answered) (fun es e h => h.2 (by simp) _) fun es h => h.2 (by simp) _
  case asking =>
    refine Ensures.rescue deciding (fun es d h => ⟨fun _ _ => h, fun h => absurd rfl (h d)⟩)
      (fun es e h => ?_) fun es h => ⟨fun d h => (by cases h), fun _ line => ?_⟩
    · obtain ⟨ss, rfl⟩ := h
      refine Ensures.emit_bind ?_
      split
      · exact Ensures.raise ⟨fun d h => (by cases h), fun _ line =>
          .unanswered rfl fun _ => ⟨_, .inl rfl⟩⟩
      · next hne =>
        refine Ensures.raise ⟨fun d h => (by cases h), fun _ line => .unanswered rfl fun h => ?_⟩
        cases e <;> first | exact absurd rfl (hne _) | cases h
    · obtain ⟨ss, rfl⟩ := h
      exact .unfinished rfl
  case answered =>
    obtain ⟨ss, rfl⟩ := h.1 d rfl
    exact fun _ _ => .answered rfl

/-- A question, with nothing but its answer in what follows. -/
theorem Gated.question {prompt : Prompt} {line : Signal} {q : PromptRequest} {es : List Signal}
    {rest : List Stage} {o : Ending Unit} (hq : q.prompt = prompt)
    (hrest : ∀ e ∈ rest, e.works = false ∧ e.asked? = none)
    (hconsented : o = .returned () → consents rest = [prompt])
    (hstopped : ∀ e ∈ rest, e.refuses → ∃ c, o = .raised c ∧ c.Stops) :
    Gated [prompt] (.session line :: .asked q :: (es.map .shell ++ rest)) o := by
  have hshell : ∀ e ∈ es.map Stage.shell, e.Plain := by
    intro e he
    obtain ⟨s, -, rfl⟩ := List.mem_map.mp he
    exact ⟨rfl, rfl, rfl, rfl⟩
  have hnone : ∀ e ∈ es.map Stage.shell ++ rest, e.works = false ∧ e.asked? = none :=
    List.forall_mem_append.mpr ⟨fun e he => ⟨(hshell e he).1, (hshell e he).2.1⟩, hrest⟩
  have hasks : asks (.session line :: .asked q :: (es.map .shell ++ rest)) = [prompt] := by
    have h : asks (es.map .shell ++ rest) = [] :=
      List.filterMap_eq_nil_iff.mpr fun e he => (hnone e he).2
    show q.prompt :: asks (es.map .shell ++ rest) = [prompt]
    rw [h, hq]
  refine ⟨?idle, hasks ▸ List.prefix_rfl, fun ho => ⟨hasks, ?consented⟩, ?quiet, ?stopped⟩
  case idle => simpa [Stage.works] using fun e he => (hnone e (by simpa using he)).1
  case consented =>
    show consents (es.map .shell ++ rest) = [prompt]
    rw [consents_append, Gated.consents_plain hshell, hconsented ho, List.nil_append]
  case quiet =>
    refine List.pairwise_cons.mpr ⟨fun _ _ h => (by cases h), List.pairwise_cons.mpr
      ⟨fun _ _ h => (by cases h), ?_⟩⟩
    exact List.pairwise_of_forall_mem_list fun _ _ e' he' _ => (hnone e' he').2
  case stopped =>
    refine List.forall_mem_cons.mpr ⟨fun h => (by cases h), List.forall_mem_cons.mpr
      ⟨fun h => (by cases h), List.forall_mem_append.mpr ⟨fun e he h => ?_, hstopped⟩⟩⟩
    rw [(hshell e he).2.2.2] at h
    cases h

namespace Installer

variable (i : Installer σ) (device : Device) (os : OperatingSystem)

/-- A question that is not consented to ends the installation. -/
theorem consult_gated (prompt : Prompt) (data : Value) (refusal : String) :
    (i.consult prompt data refusal).Meets (Gated [prompt]) := by
  refine Ensures.bind (i.host.askStaged_asksOne prompt data) (fun es d h => ?returned)
    (fun es e h => ?raised) fun es h => ?unfinished
  case returned =>
    cases h with
    | answered hq =>
    cases hd : d.resumes with
    | true =>
      refine Ensures.pure ?_
      rw [List.append_nil]
      refine Gated.question hq ?_ (fun _ => ?_) ?_
      · simp [Stage.works, Stage.asked?]
      · simp [consents, Stage.consent?, hd]
      · simp [Stage.refuses, hd]
    | false =>
      refine Ensures.raise ?_
      rw [List.append_nil]
      refine Gated.question hq ?_ (fun h => by cases h) fun _ _ _ => ⟨_, rfl, _, .inr rfl⟩
      simp [Stage.works, Stage.asked?]
  case raised =>
    cases h with
    | malformed => exact Gated.more (.of_plain (by simp)) (by simp)
    | unanswered hq hc =>
      refine Gated.question hq ?_ (fun h => by cases h) fun e' he' hr => ⟨_, rfl, ?_⟩
      · simp [Stage.works, Stage.asked?]
      · cases List.mem_singleton.mp he'
        exact hc hr
  case unfinished =>
    cases h with
    | unfinished hq =>
      rw [← List.append_nil (List.map Stage.shell _)]
      exact Gated.question hq (by simp) (fun h => by cases h) (by simp)

/-- What is asked with a list that may be empty, or malformed. -/
def gate (listed : Fallible (List Value)) (prompt : Prompt) : List Prompt :=
  match listed with
  | .ok (_ :: _) => [prompt]
  | _ => []

/-- The questions that an operating system calls for, in order. -/
def gates (os : OperatingSystem) : List Prompt :=
  gate os.prerequisites .prerequisites ++
    ((if os.eula.truth then [.eula] else []) ++ gate os.options .configure)

theorem discard_consult_gated (prompt : Prompt) (data : Value) (refusal : String) :
    (discard (i.consult prompt data refusal) : Staged (Hosted σ) Unit).Meets (Gated [prompt]) :=
  Gated.bind (i.consult_gated prompt data refusal) fun _ => Gated.pure ()

theorem consultPrerequisites_gated :
    (i.consultPrerequisites device os).Meets
      (Gated (gate os.prerequisites .prerequisites)) := by
  refine Gated.ofFallible_bind fun prerequisites hread => ?_
  rw [hread]
  cases prerequisites with
  | nil => exact Gated.pure ()
  | cons v vs => exact Gated.ofFallible_bind fun _ _ => i.discard_consult_gated _ _ _

theorem consultTerms_gated :
    (i.consultTerms os).Meets (Gated (if os.eula.truth then [.eula] else [])) := by
  unfold consultTerms
  cases os.eula.truth with
  | false => exact Gated.pure ()
  | true => exact i.discard_consult_gated _ _ _

theorem consultOptions_gated (options : List Value) (settings : Settings) :
    (i.consultOptions options settings).Meets (Gated [.configure]) := by
  refine Gated.bind (.ofSession _) fun _ => Gated.bind (i.consult_gated _ _ _) fun decision => ?_
  split
  · exact Gated.ofFallible _
  · exact Gated.raise _

theorem consultSettings_gated :
    (i.consultSettings os).Meets (Gated (gate os.options .configure)) := by
  refine Gated.ofFallible_bind fun _ _ => Gated.ofFallible_bind fun _ _ => ?_
  refine Gated.bind (.ofSession _) fun session => Gated.ofFallible_bind fun preset _ => ?_
  refine Gated.ofFallible_bind fun options hread => ?_
  rw [hread]
  cases options with
  | nil =>
    exact Gated.quietly (Gated.ofSession _) fun _ => Gated.quietly (Gated.pure _) fun _ =>
      Gated.quietly (Gated.ofSession _) fun _ => Gated.pure _
  | cons v vs =>
    exact Gated.bind (i.consultOptions_gated _ _) fun _ =>
      Gated.quietly (Gated.ofSession _) fun _ => Gated.pure _

/-- What an installation leaves while it is conducted: it ends at a question, or the steps are run
once every question that is called for was consented to. -/
inductive Conducts (prompts : List Prompt) : List Stage → Ending Bool → Prop
  | kept {es : List Stage} {o : Ending Bool} (asked : Gated prompts es o.forget)
    (ho : o.forget ≠ .returned ()) : Conducts prompts es o
  | ran {es : List Stage} {events : List Event} {o : Ending Bool}
    (asked : Gated prompts es (.returned ())) : Conducts prompts (es ++ events.map .worked) o

theorem conductStaged_conducts : (i.conductStaged device os).Ensures (Conducts (gates os)) := by
  have asking := Gated.bind (i.consultPrerequisites_gated device os) fun _ =>
    Gated.bind (i.consultTerms_gated os) fun _ => i.consultSettings_gated os
  have running (settings : Settings) : (((i.workflow device os settings).run
      (os.steps ++ [endStep])).mapEvents Stage.worked).Ensures fun es _ =>
        ∃ events : List Event, es = events.map .worked :=
    Ensures.mapEvents fun _ _ => ⟨_, rfl⟩
  have h := Ensures.bind (Q := Conducts (gates os)) asking
    (fun es settings hes => (running settings).mono fun es' o h => by
      obtain ⟨events, rfl⟩ := h
      exact .ran hes)
    (fun es e hes => .kept hes (by simp)) fun es hes => .kept hes (by simp)
  simpa only [conductStaged, bind_assoc] using h

/-! ## Consent -/

/-- A fault that stops an installation makes it return `false`. -/
theorem stopped_returns {c : Fault} (hc : c.Stops) (n : Nat) (w : Hosted σ) :
    (i.stopped c n w).ending = .returned false := by
  obtain ⟨message, rfl | rfl⟩ := hc <;> rfl

/-- What is left of an installation up to some point: what it leaves while it is conducted, and then
what the session does. It ended so that the session `stops` it, if a fault that stops it was
raised. -/
def Settles (os : OperatingSystem) (stops : Prop) (es : List Stage) : Prop :=
  ∃ inner o, ∃ tail : List Signal, es = inner ++ tail.map .session ∧ Conducts (gates os) inner o ∧
    ∀ c, o = .raised c → c.Stops → stops

theorem Settles.imp {os : OperatingSystem} {es : List Stage} {stops stops' : Prop}
    (h : Settles os stops es) (hstops : stops → stops') : Settles os stops' es := by
  obtain ⟨inner, o, tail, hes, hconducts, h⟩ := h
  exact ⟨inner, o, tail, hes, hconducts, fun c hc hs => hstops (h c hc hs)⟩

theorem staged_ensures : (i.staged device os).Ensures fun es o =>
    ∃ line rest, es = .session line :: rest ∧ Settles os (o = .returned false) rest := by
  have conducting : ((i.conductStaged device os).rescue fun e =>
      Staged.ofSession (i.stopped e)).Ensures fun es o => Settles os (o = .returned false) es := by
    refine Ensures.rescue (i.conductStaged_conducts device os)
      (fun es b h => ⟨es, _, [], by simp, h, fun c hc => by cases hc⟩)
      (fun es e h n w => ⟨es, _, _, rfl, h, fun c hc hstops => ?_⟩)
      fun es h => ⟨es, _, [], by simp, h, fun c hc => by cases hc⟩
    cases hc
    exact i.stopped_returns hstops n w
  have attempting : ((i.conductStaged device os).rescue fun e =>
      Staged.ofSession (i.stopped e)).attempt.Ensures fun es o =>
        Settles os (o = .returned (.ok false)) es := by
    refine Ensures.attempt conducting (fun es b h => h.imp ?_) (fun es e h => h.imp ?_)
      fun es h => h.imp ?_
    all_goals
      intro hreturned
      cases hreturned
    rfl
  have begins (f : Session → Session) : (Staged.ofSession (Session.modify f) :
      Staged (Hosted σ) Unit).Ensures fun es o => es = [] ∧ o = .returned () :=
    fun _ _ => ⟨rfl, rfl⟩
  refine Ensures.emit_bind (Ensures.bind (begins _) (fun es _ h => ?_) (fun es e h => by cases h.2)
    fun es h => by cases h.2)
  rw [h.1]
  refine Ensures.bind attempting (fun es result h n w => ?_) (fun es e h => ⟨_, _, rfl, h.imp ?_⟩)
    fun es h => ⟨_, _, rfl, h.imp ?_⟩
  · -- The result is passed on, with no event after it.
    cases result with
    | ok b =>
      refine ⟨_, es ++ [], rfl, ?_⟩
      rw [List.append_nil]
      exact h.imp fun hreturned => by cases hreturned; rfl
    | error e =>
      refine ⟨_, es ++ [], rfl, ?_⟩
      rw [List.append_nil]
      exact h.imp fun hreturned => by cases hreturned
  · exact fun hreturned => by cases hreturned
  · exact fun hreturned => by cases hreturned

end Installer

/-- What consent means for the stages of an installation: no step is run before all questions that
are called for were put, in order, and the user consented to each of them; no question is put twice,
and none that is not called for; and a refusal is the end, with no step run. -/
structure Consults (prompts : List Prompt) (es : List Stage) (o : Ending Bool) : Prop where
  consent : ∀ before e after, es = before ++ .worked e :: after →
    asks before = prompts ∧ consents before = prompts
  once : asks es <+: prompts
  refusal : ∀ before e after, es = before ++ e :: after → e.refuses →
    o = .returned false ∧ asks after = [] ∧ ∀ event, .worked event ∉ es

namespace Installer

variable {i : Installer σ} {device : Device} {os : OperatingSystem}

/-- An installation that ends at a question runs no step. -/
theorem Consults.of_kept {prompts : List Prompt} {pre tail : List Stage} {o : Ending Unit}
    {o' : Ending Bool} (h : Gated prompts pre o) (htail : ∀ e ∈ tail, e.Plain)
    (hstops : ∀ c, o = .raised c → c.Stops → o' = .returned false) :
    Consults prompts (pre ++ tail) o' := by
  have hidle : ∀ e ∈ pre ++ tail, e.works = false :=
    List.forall_mem_append.mpr ⟨h.idle, fun e he => (htail e he).1⟩
  have hworked (event : Event) : .worked event ∉ pre ++ tail := fun hmem => by
    cases hidle _ hmem
  refine ⟨fun before e after heq => ?consent, ?once, fun before e after heq hr => ?refusal⟩
  case consent => exact absurd (by simp [heq]) (hworked e)
  case once =>
    rw [asks_append, Gated.asks_plain htail, List.append_nil]
    exact h.asked
  case refusal =>
    have hquiet : (pre ++ tail).Pairwise fun e e' => e.refuses → e'.asked? = none :=
      List.pairwise_append.mpr ⟨h.quiet,
        List.pairwise_of_forall_mem_list fun _ _ e' he' _ => (htail e' he').2.1,
        fun _ _ e' he' _ => (htail e' he').2.1⟩
    rw [heq, List.pairwise_append, List.pairwise_cons] at hquiet
    have hmem : e ∈ pre ++ tail := by simp [heq]
    rcases List.mem_append.mp hmem with he | he
    · obtain ⟨c, hc, hs⟩ := h.stopped e he hr
      exact ⟨hstops c hc hs, List.filterMap_eq_nil_iff.mpr fun e' he' => hquiet.2.1.1 e' he' hr,
        hworked⟩
    · rw [(htail e he).2.2.2] at hr
      cases hr

/-- Steps that are run once all questions were consented to. -/
theorem Consults.of_ran {prompts : List Prompt} {pre rest : List Stage} {o : Ending Bool}
    (h : Gated prompts pre (.returned ()))
    (hrest : ∀ e ∈ rest, e.asked? = none ∧ e.consent? = none ∧ e.refuses = false) :
    Consults prompts (pre ++ rest) o := by
  obtain ⟨hasks, hconsents⟩ := h.consented rfl
  have silent {es : List Stage} (hes : ∀ e ∈ es, e ∈ rest) : asks es = [] ∧ consents es = [] :=
    ⟨List.filterMap_eq_nil_iff.mpr fun e he => (hrest e (hes e he)).1,
      List.filterMap_eq_nil_iff.mpr fun e he => (hrest e (hes e he)).2.1⟩
  refine ⟨fun before e after heq => ?consent, ?once, fun before e after heq hr => ?refusal⟩
  case consent =>
    rcases List.append_eq_append_iff.mp heq with ⟨more, rfl, hmore⟩ | ⟨more, rfl, hmore⟩
    · have hsilent : asks more = [] ∧ consents more = [] :=
        silent fun e' he' => by simp [hmore, he']
      obtain ⟨hnone, hnone'⟩ := hsilent
      rw [asks_append, consents_append, hasks, hconsents, hnone, hnone', List.append_nil]
      exact ⟨rfl, rfl⟩
    · cases more with
      | nil =>
        rw [List.append_nil] at hasks hconsents
        exact ⟨hasks, hconsents⟩
      | cons e' more =>
        -- The questions come before any work.
        obtain ⟨rfl, -⟩ := List.cons.inj hmore
        cases h.idle (.worked e) (by simp)
  case once =>
    have hall : asks (pre ++ rest) = prompts := by
      rw [asks_append, (silent fun _ h => h).1, List.append_nil, hasks]
    exact hall ▸ List.prefix_rfl
  case refusal =>
    have hmem : e ∈ pre ++ rest := by simp [heq]
    rcases List.mem_append.mp hmem with he | he
    · obtain ⟨c, hc, -⟩ := h.stopped e he hr
      cases hc
    · rw [(hrest e he).2.2] at hr
      cases hr

theorem consults_of_settles {line : Signal} {rest : List Stage} {o : Ending Bool}
    (h : Settles os (o = .returned false) rest) :
    Consults (gates os) (.session line :: rest) o := by
  obtain ⟨inner, o', tail, rfl, hconducts, hstops⟩ := h
  have hline : Gated [] [.session line] (.returned ()) :=
    .of_plain (by simp [Stage.Plain, Stage.works, Stage.asked?, Stage.consent?, Stage.refuses])
  have htail : ∀ e ∈ tail.map Stage.session, e.Plain := by
    intro e he
    obtain ⟨s, -, rfl⟩ := List.mem_map.mp he
    exact ⟨rfl, rfl, rfl, rfl⟩
  cases hconducts with
  | kept asked ho =>
    exact Consults.of_kept (hline.append asked) htail fun c hc hs =>
      hstops c (Ending.forget_eq_raised hc) hs
  | @ran es events _ asked =>
    have hwork : ∀ e ∈ events.map Stage.worked ++ tail.map Stage.session,
        e.asked? = none ∧ e.consent? = none ∧ e.refuses = false := by
      refine List.forall_mem_append.mpr ⟨fun e he => ?_, fun e he => (htail e he).2⟩
      obtain ⟨event, -, rfl⟩ := List.mem_map.mp he
      exact ⟨rfl, rfl, rfl⟩
    have h := Consults.of_ran (o := o) (hline.append asked) hwork
    simpa using h

theorem gates_nodup (os : OperatingSystem) : (gates os).Nodup := by
  unfold gates gate
  split <;> split <;> split <;> decide

example : gates ⟨[(.str "name", .str "Ubuntu Touch"), (.str "eula", .str "Be careful"),
    (.str "options", .list [.ofFields [("var", .str "wipe")]])], []⟩ = [.eula, .configure] := by
  cbv

/-- Nothing is done before the user consents. An installation fails at once, or the user is asked
what the operating system calls for, each question once and in order; no step is run, and so no
handler is called, before the user has consented to all of them; and a refusal is the end. -/
theorem install_consults (i : Installer σ) (index : Value) (n : Nat) (w : Hosted σ) :
    (∃ e, i.install index n w = ⟨.raised e, [], w⟩) ∨
      ∃ device os, w.session.Selects index device os ∧
        i.install index n w = (i.staged device os).erase n w ∧ (gates os).Nodup ∧
        Consults (gates os) (i.staged device os n w).events (i.staged device os n w).ending := by
  rcases install_cases i index n w with hfailed | ⟨device, os, hselects, hinstall⟩
  · exact .inl hfailed
  · obtain ⟨line, rest, hevents, hsettles⟩ := i.staged_ensures device os n w
    refine .inr ⟨device, os, hselects, ?_, gates_nodup os, ?_⟩
    · rw [hinstall, erase_staged]
    · rw [hevents]
      exact consults_of_settles hsettles

end Installer

end Reflash
