import Reflash.Proofs.Hold

set_option autoImplicit false

/-! # Steps that are held where they are cancelled

A host and a table can be held wherever one of their calls is cancelled (`Host.held`,
`ActionTable.held`). If what they do keeps a property of worlds unless it is cancelled, then all that
steps still do after that is to stop (`Workflow.runSteps_held`): a cancelled call passes through all
handlers as it is, and a question that was cancelled becomes a kill, which passes through recovery. -/

namespace Reflash

open Run

variable {ε σ α β : Type}

/-! ## Causes -/

/-- Where runs are held: by which cancellations of calls, and by which of questions. -/
structure Hold where
  calls : Fault → Bool
  questions : Fault → Bool
  calls_cancelled : ∀ e, calls e = true → e.isOrdinary = false
  questions_cancelled : ∀ e, questions e = true → e.isOrdinary = false

theorem Fault.eq_cancelled {e : Fault} (h : e.isOrdinary = false) :
    ∃ message, e = .cancelled message := by
  cases e with
  | cancelled message => exact ⟨message, rfl⟩
  | _ => cases h

namespace Hold

/-- Held at every cancellation. -/
def everywhere : Hold where
  calls e := !e.isOrdinary
  questions e := !e.isOrdinary
  calls_cancelled e h := by simpa using h
  questions_cancelled e h := by simpa using h

/-- Held where a call that is no question is cancelled with the given message. -/
def outside (message : String) : Hold where
  calls
    | .cancelled message' => message' == message
    | _ => false
  questions _ := false
  calls_cancelled e h := by
    cases e with
    | cancelled => rfl
    | _ => cases h
  questions_cancelled e h := by cases h

/-- The causes by which jobs stop, jobs that ask the user among them. A question that is cancelled is a
kill. -/
inductive Stops (hold : Hold) : Bool → Fault → Prop
  | call {asks : Bool} {e : Fault} (h : hold.calls e = true) : Stops hold asks e
  | question {e : Fault} {message : String} (h : hold.questions e = true) :
    Stops hold true (.killed message)

/-- The causes by which steps stop. A kill can be the failure of the action that asked. -/
inductive StopsSteps (hold : Hold) : Fault → Prop
  | same {e : Fault} (h : hold.Stops true e) : StopsSteps hold e
  | inAction {id message : String} (h : hold.Stops true (.killed message)) :
    StopsSteps hold (.inAction id (.killed message))

variable {hold : Hold}

theorem Stops.widen {asks : Bool} {e : Fault} (h : hold.Stops false e) : hold.Stops asks e := by
  cases h with
  | call h => exact .call h

theorem Stops.not_ordinary {e : Fault} (h : hold.Stops false e) : e.isOrdinary = false := by
  cases h with
  | call h => exact hold.calls_cancelled e h

/-- A cause by which jobs stop is a cancellation or a kill. -/
theorem Stops.cases {e : Fault} (h : hold.Stops true e) :
    (∃ message, e = .cancelled message) ∨ ∃ message, e = .killed message := by
  cases h with
  | call h => exact .inl (Fault.eq_cancelled (hold.calls_cancelled e h))
  | question h => exact .inr ⟨_, rfl⟩

/-- A cause by which the call of an action stops is one by which steps stop, once it is the failure of the
action. -/
theorem Stops.asFailureOf {e : Fault} (h : hold.Stops true e) (id : String) :
    hold.StopsSteps (Flow.asFailureOf id e) := by
  rcases h.cases with ⟨message, rfl⟩ | ⟨message, rfl⟩
  · exact .same h
  · exact .inAction h

end Hold

/-! ## What may still happen -/

/-- A signal that may come after a cancellation: neither a question, nor one of the lines that say that
a step or a handler is run. -/
def Signal.Closes : Signal → Prop
  | .prompted _ => False
  | .logged line => ¬(line.level = .debug ∧ line.source = "interpreter")
  | _ => True

/-- An event that may come after a cancellation. -/
def Event.Closes (e : Event) : Prop :=
  ∀ s, e.signal? = some s → s.Closes

/-! ## Jobs -/

section

variable (hold : Hold) (I : σ → Prop)

/-- Being held is kept by jobs that are put together. -/
theorem Hold.kinship : Job.Kinship fun asks {_ : Type} (job job' : Job σ _) =>
    Held I (Stopping (hold.Stops asks) Signal.Closes) job job' where
  emit s _ := .emit s
  ofFallible x := .ofFallible x
  bind h hnext := h.bind hnext
  rescue h hhandler hpass := h.rescue hhandler fun c n w hc => by
    rw [hpass c hc.not_ordinary]
    exact .intro hc.widen (by simp)
  attempt_bind h hnext hpass := h.attempt_bind hnext fun c n w hc => by
    rw [hpass c hc.not_ordinary]
    exact .intro hc.widen (by simp)

/-- The host, held where its calls and its questions are cancelled. A file is copied to its end before a
cancellation can arrive. -/
def Host.held (host : Host σ) : Host σ where
  notify := host.notify
  decide request := (host.decide request).heldAt hold.questions
  pause := host.pause.heldAt hold.calls
  tools := {
    hasAccess := fun tool => (host.tools.hasAccess tool).heldAt hold.calls
    perform := fun call report => (host.tools.perform call report).heldAt hold.calls
    systemImage := host.tools.systemImage.map fun install options report =>
      (install options report).heldAt hold.calls
    download := fun files reports => (host.tools.download files reports).heldAt hold.calls
    checkFile := fun path checksum => (host.tools.checkFile path checksum).heldAt hold.calls
    unpack := fun archive dir => (host.tools.unpack archive dir).heldAt hold.calls
    makeDirectories := host.tools.makeDirectories
    copyFile := host.tools.copyFile }

/-- What the host does keeps the property of worlds, unless it is cancelled. -/
structure Host.KeepsUnless (host : Host σ) : Prop where
  notify : ∀ notice w, I w → I (host.notify notice w)
  decide : ∀ request, (host.decide request).KeepsUnless I hold.questions
  pause : host.pause.KeepsUnless I hold.calls
  hasAccess : ∀ tool, (host.tools.hasAccess tool).KeepsUnless I hold.calls
  perform : ∀ call, (host.tools.perform call host.reportProgress).KeepsUnless I hold.calls
  systemImage : ∀ install, host.tools.systemImage = some install → ∀ options,
    (install options host.reportProgress).KeepsUnless I hold.calls
  download : ∀ (ctx : Context σ), ctx.host = host → ∀ files group,
    (host.tools.download files (Builtin.downloadReports ctx group)).KeepsUnless I hold.calls
  checkFile : ∀ path checksum, (host.tools.checkFile path checksum).KeepsUnless I hold.calls
  unpack : ∀ archive dir, (host.tools.unpack archive dir).KeepsUnless I hold.calls
  makeDirectories : ∀ path n w, I w → I (host.tools.makeDirectories path n w).world
  copyFile : ∀ source target n w, I w → I (host.tools.copyFile source target n w).world

end

section

variable {hold : Hold} {I : σ → Prop} {host : Host σ} (hhost : host.KeepsUnless hold I)
include hhost

/-- A question that is held, and becomes a kill if it is cancelled. -/
theorem Host.KeepsUnless.ask (prompt : Prompt) (data : Value) (action : Option String)
    (step : Option Entries) (cause : Option String) :
    Held I (Stopping (hold.Stops true) Signal.Closes) (host.ask prompt data action step cause)
      ((host.held hold).ask prompt data action step cause) := by
  have hdecide (request : PromptRequest) :
      Held I (Stopping (fun e => hold.questions e = true) Signal.Closes) (host.decide request)
        ((host.decide request).heldAt hold.questions) :=
    .of_keepsUnless (hhost.decide request) fun _ h => h
  refine .bind (.ofFallible _) fun data => .bind (.emit _) fun _ => .bind (.emit _) fun _ => ?_
  refine .bind ((hdecide _).rescue (fun e => ?_) fun e n w he => ?_) fun decision => ?_
  · cases e <;> exact .raise _
  · obtain ⟨message, rfl⟩ := Fault.eq_cancelled (hold.questions_cancelled e he)
    exact .intro (.question he) (by simp)
  · exact .bind (.emit _) fun _ => .pure _

theorem Host.KeepsUnless.kin : Host.Kin
    (fun asks {_ : Type} job job' => Held I (Stopping (hold.Stops asks) Signal.Closes) job job')
    host (host.held hold) := by
  have calling {γ : Type} {asks : Bool} {job : Job σ γ} (h : job.KeepsUnless I hold.calls) :
      Held I (Stopping (hold.Stops asks) Signal.Closes) job (job.heldAt hold.calls) :=
    .of_keepsUnless h fun _ => .call
  exact {
    notify := fun notice => .same fun _ w => hhost.notify notice w
    ask := hhost.ask
    pause := calling hhost.pause
    hasAccess := fun tool => calling (hhost.hasAccess tool)
    perform := fun call => calling (hhost.perform call)
    noImage := fun h => by unfold Host.held; rw [h]; rfl
    systemImage := fun install h => ⟨_, by unfold Host.held; rw [h]; rfl, fun options =>
      calling (hhost.systemImage install h options)⟩
    download := fun ctx h files group => by
      subst h
      exact calling (hhost.download ctx rfl files group)
    checkFile := fun path checksum => calling (hhost.checkFile path checksum)
    unpack := fun archive dir => calling (hhost.unpack archive dir)
    makeDirectories := fun path => .same (hhost.makeDirectories path)
    copyFile := fun source target => .same fun n w hw => by
      rw [Run.world_attempt]
      exact hhost.copyFile source target n w hw }

end

/-! ## Handlers -/

namespace ActionTable

/-- The table with other handlers in place of its own. -/
def map (f : Handler σ → Handler σ) (table : ActionTable σ) : ActionTable σ :=
  ⟨table.namespaces.map fun (ns, verbs) =>
    (ns, verbs.map fun (verb, handler) => (verb, handler.map f))⟩

theorem lookup_map_snd {γ : Type} (f : α → γ) (key : String) (pairs : List (String × α)) :
    (pairs.map fun (k, v) => (k, f v)).lookup key = (pairs.lookup key).map f := by
  induction pairs with
  | nil => rfl
  | cons p pairs ih =>
    rw [List.map_cons, List.lookup_cons, List.lookup_cons]
    cases key == p.1 with
    | true => rfl
    | false => exact ih

theorem handler?_map (f : Handler σ → Handler σ) (table : ActionTable σ) (id : String) :
    (table.map f).handler? id = (table.handler? id).map f := by
  unfold handler? map
  dsimp only
  rw [lookup_map_snd]
  cases table.namespaces.lookup (splitId id).1 with
  | none => rfl
  | some verbs =>
    simp only [Option.map_some, Option.bind_some]
    rw [lookup_map_snd]
    cases verbs.lookup (splitId id).2 with
    | none => rfl
    | some handler => rfl

variable (hold : Hold)

/-- The table, with its handlers held where they are cancelled. -/
def held (table : ActionTable σ) : ActionTable σ :=
  table.map fun handler payload ctx => (handler payload ctx).heldAt hold.calls

/-- The handlers of a table let a cancellation through, and otherwise keep the property of worlds: if one
is held, or what it calls, all that it still does is to stop. -/
def LetsThrough (I : σ → Prop) (host : Host σ) (table : ActionTable σ) : Prop :=
  ∀ id handler, table.handler? id = some handler → ∀ payload (ctx : Context σ), ctx.host = host →
    Held I (Stopping (hold.Stops true) Signal.Closes) (handler payload ctx)
      ((handler payload (ctx.on (host.held hold))).heldAt hold.calls)

end ActionTable

/-- The built-in handlers let a cancellation through. -/
theorem Builtin.table_letsThrough {hold : Hold} {I : σ → Prop} {host : Host σ}
    (hhost : host.KeepsUnless hold I) : (table : ActionTable σ).LetsThrough hold I host := by
  rintro id handler h payload ctx rfl
  have hR := hold.kinship I
  have hkin := hhost.kin
  have telling (notice : Notice) : Held I (Stopping (hold.Stops true) Signal.Closes)
      (ctx.host.tell notice) ((ctx.host.held hold).tell notice) :=
    .bind (.emit _) fun _ => hkin.notify notice
  refine Held.heldAt ?_ fun e he => .call he
  rcases handler_kin hR hkin h payload with hjob | ⟨tool, rfl⟩ | ⟨-, rfl⟩
  · exact hjob
  · exact .bind (hR.announce hkin _ _ _) fun _ =>
      .repeatFrom (fun _ => waitRound_kin hR hkin tool) ()
  · exact .bind (telling _) fun _ => .bind (.ofFallible _) fun _ => .bind (telling _) fun _ =>
      .bind (telling _) fun _ => .pure _

/-! ## Steps -/

theorem Flow.failureOf_bind_eq_thereafter (flow : Flow σ α)
    (next : Option (String × Fault) → Flow σ β) :
    Flow.failureOf flow >>= next = flow.thereafter fun
      | .returned _ => next none
      | .raised (.inAction id cause) => next (some (id, cause))
      | .raised e => Run.raise e
      | .unfinished => Run.unfinished := by
  funext n w
  rw [bind_apply, Flow.failureOf_apply]
  unfold Run.thereafter
  rcases flow n w with ⟨a | e | _, es, w'⟩
  · rfl
  · cases e <;> simp [Run.raise]
  · simp [Run.unfinished]

/-- What is passed on stops, with a line of recovery at most. -/
theorem Flow.PassesOn.stopping {c : Fault} {flow : Flow σ α} (h : Flow.PassesOn c flow)
    {stops : Fault → Prop} (hc : stops c) (n : Nat) (w : σ) :
    Stopping stops Event.Closes (flow n w) := by
  cases h with
  | raise => exact .intro hc (by simp)
  | failed id =>
    refine .intro hc fun e he s hs => ?_
    cases List.mem_singleton.mp he
    cases hs
    simp [Signal.Closes]

/-- Being held is kept by flows that are put together: a cancellation is no failure of an action, and a
kill that is one is passed on. -/
theorem Hold.flow_kinship (hold : Hold) (I : σ → Prop) :
    Flow.Kinship fun {_ : Type} (flow flow' : Flow σ _) =>
      Held I (Stopping hold.StopsSteps Event.Closes) flow flow' where
  pure a := .pure a
  raise e := .raise e
  unfinished := .same fun _ _ hw => hw
  emit e := .emit e
  bind h hnext := h.bind hnext
  failureOf_bind {α β flow flow' next next'} h hnext hpass := by
    rw [Flow.failureOf_bind_eq_thereafter, Flow.failureOf_bind_eq_thereafter]
    refine h.thereafter (fun o => ?_) rfl fun t n ht => ?_
    · rcases o with a | e | _
      · exact hnext none
      · cases e with
        | inAction id cause => exact hnext (some (id, cause))
        | _ => exact .raise _
      · exact .same fun _ _ hw => hw
    obtain ⟨⟨c, hc, hending⟩, -⟩ := id ht
    rw [hending]
    refine ht.goOn ?_
    cases hc with
    | same hc =>
      rcases hc.cases with ⟨message, rfl⟩ | ⟨message, rfl⟩
      · exact .intro (.same hc) (by simp)
      · exact .intro (.same hc) (by simp)
    | @inAction id message hc => exact (hpass id message).stopping (.same hc) n _
  inside part h := h.mapEvents _ fun e he => he
  repeatFrom h b := .repeatFrom h b

namespace Workflow

variable {hold : Hold} {I : σ → Prop} {wf : Workflow σ}

/-- The workflow, held where its calls and its questions are cancelled. -/
def held (hold : Hold) (wf : Workflow σ) : Workflow σ :=
  wf.onHost (wf.table.held hold) (wf.ctx.host.held hold)

/-- The call of a handler that is held. -/
theorem callHandler_held (htable : wf.table.LetsThrough hold I wf.ctx.host) (d : Dispatch) :
    Held I (Stopping (hold.Stops true) Event.Closes) (Flow.callHandler wf.table wf.ctx d)
      (Flow.callHandler (wf.table.held hold) (wf.ctx.on (wf.ctx.host.held hold)) d) := by
  unfold Flow.callHandler ActionTable.lookup ActionTable.held
  rw [ActionTable.handler?_map]
  cases hhandler : wf.table.handler? d.id with
  | none => exact .raise _
  | some handler =>
    have hcall := htable d.id handler hhandler d.payload wf.ctx rfl
    have hflow : Held I (Stopping (hold.Stops true) Event.Closes)
        (Flow.ofHandler (handler d.payload wf.ctx))
        (Flow.ofHandler ((handler d.payload (wf.ctx.on (wf.ctx.host.held hold))).heldAt hold.calls)) :=
      hcall.mapEvents _ fun s hs s' hs' => by
        cases hs'
        exact hs
    dsimp only [Option.map_some]
    rw [ofFallible_ok_bind, ofFallible_ok_bind]
    refine .bind (.emit _) fun _ => .bind (hflow.rescue (fun e => ?_) fun c n w hc => ?_) fun v => ?_
    · exact .bind (.emit _) fun _ => .raise e
    · refine .intro hc fun e he s hs => ?_
      cases List.mem_singleton.mp he
      cases hs
    · split
      · exact .ofFallible _
      · exact .pure _

/-- A question of recovery that is held. -/
theorem ask_held (hhost : wf.ctx.host.KeepsUnless hold I) {runSteps runSteps' : List Step → Flow σ Unit}
    (prompt : Prompt) (f : ActionFailure) (step : Step) (data : List (String × Value)) :
    Held I (Stopping hold.StopsSteps Event.Closes)
      (Recovery.ask (wf.rules runSteps) prompt f step data)
      (Recovery.ask ((wf.held hold).rules runSteps') prompt f step data) := by
  have hquestion : Held I (Stopping (hold.Stops true) Event.Closes)
      (Flow.ofRecovery (wf.ctx.host.ask prompt (.ofFields data) (some f.id) (some step.raw)
        (some f.cause.text)))
      (Flow.ofRecovery ((wf.ctx.host.held hold).ask prompt (.ofFields data) (some f.id)
        (some step.raw) (some f.cause.text))) :=
    (hhost.ask _ _ _ _ _).mapEvents _ fun s hs s' hs' => by
      cases hs'
      exact hs
  refine hquestion.attempt_bind (fun answer => ?_) fun c n w hc => ?_
  · split
    · exact .bind (.emit _) fun _ => .pure _
    · exact .bind (.emit _) fun _ => .raise _
  · refine .intro (.same hc) fun e he s hs => ?_
    cases List.mem_singleton.mp he
    cases hs

/-- Steps that are held where they are cancelled: all that they still do is to stop. -/
theorem runSteps_held (hhost : wf.ctx.host.KeepsUnless hold I)
    (htable : wf.table.LetsThrough hold I wf.ctx.host) (steps : List Step) :
    Held I (Stopping hold.StopsSteps Event.Closes) (wf.runSteps steps)
      ((wf.held hold).runSteps steps) := by
  have hwf : wf.Kin (wf.table.held hold) (wf.ctx.host.held hold) fun {_ : Type} flow flow' =>
      Held I (Stopping hold.StopsSteps Event.Closes) flow flow' :=
    { calls := fun d => (callHandler_held htable d).rescue (fun e => .raise _) fun c n w hc =>
        .intro (hc.asFailureOf d.id) (by simp)
      pauses := (hhost.kin.pause.mono fun t ⟨⟨c, hc, hending⟩, h⟩ => ⟨⟨c, .same hc, hending⟩, h⟩).mapEvents
        _ fun _ hs _ hs' => by
          cases hs'
          exact hs
      asks := fun _ _ => ask_held hhost }
  exact .withBudget fun depth => hwf.runStepsTo (hold.flow_kinship I) depth steps

end Workflow

end Reflash
