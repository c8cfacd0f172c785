import Reflash.Proofs.Acceptance

set_option autoImplicit false

/-! # Which steps can be shown

The text of a step in the record is that of the mapping it was read from, with the keys of each mapping
in order. It exists exactly if there is such an order everywhere (`Value.Orderly`) and every number can
be written, and nothing checks that when a step is read. A step without a text is ended where it would
be recorded, after its pause and its condition, and so is every skip of it; one that has a text runs as
if the text had been given to it (`Workflow.startAs`). -/

namespace Reflash

open Run

/-! ## Properties of values and of their parts -/

namespace Value

/-- A property that the values of an entry have with their mapping, and that is handed on to lists and to
mappings whose keys are texts. -/
structure Hereditary (P : Value → Prop) : Prop where
  null : P .null
  list : ∀ {xs : List Value}, (∀ x ∈ xs, P x) → P (.list xs)
  labelled : ∀ {es : Entries}, (∀ e ∈ es, e.1.isStr = true ∧ P e.2) → P (.mapping es)
  entry : ∀ {es : Entries}, P (.mapping es) → ∀ e ∈ es, P e.2

theorem hereditary_orderly : Hereditary Orderly where
  null := by rintro _ ⟨⟩
  list := orderly_list.mpr
  labelled h := by
    refine orderly_mapping.mpr ⟨.texts fun k hk => ?_, fun e he => (h e he).2⟩
    obtain ⟨e, he, rfl⟩ := List.mem_map.mp hk
    exact (h e he).1
  entry h := (orderly_mapping.mp h).2

theorem hereditary_writable : Hereditary fun v => v.writable = true where
  null := rfl
  list := writable_list.mpr
  labelled h := by
    refine writable_mapping.mpr fun e he => ⟨?_, (h e he).2⟩
    obtain ⟨k, v⟩ := e
    have hk := (h _ he).1
    cases k <;> first | rfl | cases hk
  entry h e he := (writable_mapping.mp h e he).2

/-- The keys are texts, and the values have the property. -/
def Labelled (P : Value → Prop) (es : Entries) : Prop :=
  ∀ e ∈ es, e.1.isStr = true ∧ P e.2

variable {P : Value → Prop}

theorem Labelled.put {es : Entries} (h : Labelled P es) (name : String) {v : Value} (hv : P v) :
    Labelled P (es.put (.str name) v) := by
  induction es with
  | nil => simpa [Labelled, Entries.put] using ⟨rfl, hv⟩
  | cons e es ih =>
    obtain ⟨hfirst, hrest⟩ := List.forall_mem_cons.mp h
    rw [Entries.put]
    split
    · next hsame =>
      rw [Entries.same_str] at hsame
      exact List.forall_mem_cons.mpr ⟨⟨by rw [hsame]; rfl, hv⟩, hrest⟩
    · exact List.forall_mem_cons.mpr ⟨hfirst, ih hrest⟩

namespace Hereditary

theorem field (hP : Hereditary P) {es : Entries} (h : P (.mapping es)) {name : String} {v : Value}
    (hv : es.field? name = some v) : P v := by
  obtain ⟨k, hk⟩ := mem_of_get? hv
  exact hP.entry h _ hk

theorem fieldD (hP : Hereditary P) {es : Entries} (h : P (.mapping es)) (name : String) :
    P (es.fieldD name) := by
  unfold Entries.fieldD
  cases hv : es.field? name with
  | none => exact hP.null
  | some v => exact hP.field h hv

/-- Fields picked from a mapping. -/
theorem picked (hP : Hereditary P) {es : Entries} (h : P (.mapping es)) (names : List String) :
    Labelled P (names.filterMap fun name => (es.field? name).map fun v => (.str name, v)) := by
  intro e he
  obtain ⟨name, -, hname⟩ := List.mem_filterMap.mp he
  obtain ⟨v, hv, rfl⟩ := Option.map_eq_some_iff.mp hname
  exact ⟨rfl, hP.field h hv⟩

theorem single (hP : Hereditary P) {name : String} {v : Value} (h : P v) :
    P (.mapping [(.str name, v)]) :=
  hP.labelled (List.forall_mem_singleton.mpr ⟨rfl, h⟩)

theorem typedPayload (hP : Hereditary P) {step : Entries} (h : P (.mapping step))
    (p : TypedPayload) : P (p.build step) := by
  cases p with
  | fields names => exact hP.labelled (hP.picked h names)
  | images =>
    rw [TypedPayload.build, Value.orElse]
    split
    · exact hP.fieldD h "flash"
    · exact hP.list (by simp)
  | nothing => exact hP.null

theorem typedAction (hP : Hereditary P) (type : String) {step : Entries} (h : P (.mapping step)) :
    P (.mapping [Step.typedAction type step]) := by
  unfold Step.typedAction
  split
  · exact hP.single (hP.typedPayload h _)
  · exact hP.single hP.null

/-- A typed step brings no key into its form with actions but texts. -/
theorem actionForm (hP : Hereditary P) (type : String) {step : Entries} (h : P (.mapping step)) :
    P (.mapping (Step.actionForm type step)) := by
  have hout := (hP.picked h Step.sharedFields).put "actions"
    (hP.list (List.forall_mem_singleton.mpr (hP.typedAction type h)))
  unfold Step.actionForm
  dsimp only
  split
  · refine hP.labelled (hout.put "fallback" (hP.list (List.forall_mem_singleton.mpr ?_)))
    exact hP.single (hP.single (hP.fieldD h "fallback_user_action"))
  · exact hP.labelled hout

/-- A step is kept with what the property says of the document. -/
theorem ofValue (hP : Hereditary P) {path : String} {v : Value} {s : Step}
    (h : Step.ofValue path v = .ok s) (hv : P v) : P (.mapping s.raw) := by
  obtain ⟨-, rfl | ⟨raw, rfl, hraw⟩⟩ := Step.ofValue_raw h
  · exact hv
  · rw [hraw]
    exact hP.actionForm _ hv

end Hereditary

end Value

/-! ## The text of a step -/

namespace Step

/-- What is shown of a step: its mapping, or its actions if that is empty. -/
def shownRaw (s : Step) : Entries :=
  if s.raw.isEmpty then [(.str "actions", .list (s.actions.map Action.toValue))] else s.raw

theorem describe_eq (s : Step) : s.describe = (Value.mapping s.shownRaw).document := rfl

/-- A step that was read from nothing has no actions, so nothing keeps it from being shown. -/
theorem shownRaw_cases {path : String} {s : Step} (h : ofEntries path s.raw = .ok s) :
    s.shownRaw = s.raw ∨ s.raw = [] ∧ s.shownRaw = [(.str "actions", .list [])] := by
  unfold shownRaw
  cases hempty : s.raw.isEmpty with
  | false => exact .inl rfl
  | true =>
    have hraw := List.isEmpty_iff.mp hempty
    have hlist := (ofEntries_readAs h).actions
    rw [hraw] at hlist
    have hactions : s.actions = [] := (Except.ok.inj hlist).symm
    exact .inr ⟨hraw, by rw [if_pos rfl, hactions]; rfl⟩

/-- What is shown of a step has a property exactly if its mapping has it. -/
theorem shownRaw_iff {P : Value → Prop} (hP : Value.Hereditary P) {path : String} {s : Step}
    (h : ofEntries path s.raw = .ok s) : P (.mapping s.shownRaw) ↔ P (.mapping s.raw) := by
  rcases shownRaw_cases h with heq | ⟨hraw, heq⟩
  · rw [heq]
  · rw [heq, hraw]
    exact iff_of_true (hP.single (hP.list (by simp))) (hP.labelled (by simp))

end Step

/-! ## Starting a step with its text -/

namespace Workflow

variable {σ : Type}

/-- One start of a step that is shown by a given text. -/
def startAs (wf : Workflow σ) (runSteps : List Step → Flow σ Unit) (step : Step) (text : String)
    (a : StepAttempt) : Flow σ (StepAttempt ⊕ Unit) := do
  Flow.ofRecovery wf.ctx.host.pause
  if ← Condition.evaluate step.condition wf.ctx.settings.data then
    Run.emit (.started text)
    match ← Flow.failureOf (Flow.actions runSteps wf.table wf.ctx step.actions) with
    | none => return .inr ()
    | some (id, cause) =>
      match ← Recovery.handle (wf.rules runSteps) ⟨id, cause⟩ step a with
      | (.done, _) => return .inr ()
      | (.replay, a) =>
        let a := { a with replays := a.replays + 1 }
        Run.emit (.replayed text a.replays)
        return .inl a
  else
    Run.emit (.skipped text)
    return .inr ()

/-- One start of a step that cannot be shown: it ends where its text is needed, whether its condition
holds or not. -/
def startUnshown (wf : Workflow σ) (step : Step) (e : Fault) : Flow σ (StepAttempt ⊕ Unit) := do
  Flow.ofRecovery wf.ctx.host.pause
  let _ ← Condition.evaluate step.condition wf.ctx.settings.data
  Run.raise e

variable (wf : Workflow σ) (runSteps : List Step → Flow σ Unit)

theorem start_eq_startAs {s : Step} {text : String} (h : s.describe = .ok text) :
    wf.start runSteps s = wf.startAs runSteps s text := by
  funext a
  unfold start startAs
  rw [h]
  rfl

theorem start_eq_startUnshown {s : Step} {e : Fault} (h : s.describe = .error e) (a : StepAttempt) :
    wf.start runSteps s a = wf.startUnshown s e := by
  unfold start startUnshown
  rw [h]
  congr 1
  funext _
  congr 1
  funext applies
  cases applies <;> rfl

/-- A step that is accepted has a text, and runs as if the text had been given to it, exactly if the
mapping that it was read from is orderly and can be written, both of which hold of it if they hold of the
document. Any other step that is accepted is ended by its own record, each time it is started. -/
theorem step_of_accepted {path : String} {v : Value} {s : Step} (h : Step.ofValue path v = .ok s) :
    (v.Orderly → (Value.mapping s.raw).Orderly) ∧
    (v.writable = true → (Value.mapping s.raw).writable = true) ∧
    ((Value.mapping s.raw).Orderly → (Value.mapping s.raw).writable = true →
      ∃ text, s.describe = .ok text ∧
        ∀ {σ : Type} (wf : Workflow σ) (runSteps : List Step → Flow σ Unit),
          wf.step runSteps s = Run.repeatFrom (wf.startAs runSteps s text) {}) ∧
    (¬((Value.mapping s.raw).Orderly ∧ (Value.mapping s.raw).writable = true) →
      ∃ e, s.describe = .error e ∧
        (e = .mistyped ∧ ¬(Value.mapping s.raw).Orderly ∨
          e = .unwritable ∧ (Value.mapping s.raw).writable = false) ∧
        ∀ {σ : Type} (wf : Workflow σ) (runSteps : List Step → Flow σ Unit),
          wf.step runSteps s = Run.repeatFrom (fun _ => wf.startUnshown s e) {}) := by
  have hread := (Step.ofValue_raw h).1
  have horderly := Step.shownRaw_iff Value.hereditary_orderly hread
  have hwritable := Step.shownRaw_iff Value.hereditary_writable hread
  refine ⟨Value.hereditary_orderly.ofValue h, Value.hereditary_writable.ofValue h,
    fun ho hw => ?_, fun hnot => ?_⟩
  · obtain ⟨text, htext⟩ := Value.document_ok_iff.mpr ⟨horderly.mpr ho, hwritable.mpr hw⟩
    rw [← s.describe_eq] at htext
    refine ⟨text, htext, fun wf runSteps => ?_⟩
    rw [step, wf.start_eq_startAs runSteps htext]
  · rw [← horderly, ← hwritable, ← Value.document_ok_iff, ← s.describe_eq] at hnot
    cases hdescribe : s.describe with
    | ok text => exact absurd ⟨text, hdescribe⟩ hnot
    | error e =>
      refine ⟨e, rfl, ?_, fun wf runSteps => ?_⟩
      · rw [← horderly, ← Bool.not_eq_true, ← hwritable, Bool.not_eq_true]
        exact Value.document_error hdescribe
      · rw [step, funext (wf.start_eq_startUnshown runSteps hdescribe)]

/-- A typed step is shown by its form with actions, so a key that is dropped does no harm. -/
theorem typed_step_shown :
    let v : Value := .mapping [(.str "type", .str "systemimage"), (.int 5, .str "a")]
    let s : Step := {
      actions := [.named "systemimage:install"]
      raw := [(.str "actions", .list [.ofFields [("systemimage:install", .null)]])] }
    Step.ofValue "step" v = .ok s ∧ ¬v.Orderly ∧ (Value.mapping s.raw).Orderly ∧
      ∃ text, s.describe = .ok text ∧
        ∀ {σ : Type} (wf : Workflow σ) (runSteps : List Step → Flow σ Unit),
          wf.step runSteps s = Run.repeatFrom (wf.startAs runSteps s text) {} := by
  intro v s
  have hread : Step.ofValue "step" v = .ok s := by cbv
  have hnot : ¬v.Orderly := by
    rw [Value.orderly_mapping]
    rintro ⟨h, -⟩
    cases Value.keysSpellable_iff.mpr h
  have horderly : (Value.mapping s.raw).Orderly :=
    Value.hereditary_orderly.single (Value.orderly_list.mpr
      (List.forall_mem_singleton.mpr (Value.hereditary_orderly.single (by rintro _ ⟨⟩))))
  exact ⟨hread, hnot, horderly, (step_of_accepted hread).2.2.1 horderly (by cbv)⟩

end Workflow

/-- A payload with a text and a number for keys is accepted, and has no text. -/
theorem Step.accepted_without_text :
    let v : Value := .ofFields [("actions", .list [.ofFields [("t:op",
      .mapping [(.int 5, .str "a"), (.str "x", .str "b")])]])]
    ∃ s, Step.ofValue "step" v = .ok s ∧ s.describe = .error .mistyped ∧
      ¬∃ text, s.describe = .ok text := by
  intro v
  let s : Step := {
    actions := [.named "t:op" (.mapping [(.int 5, .str "a"), (.str "x", .str "b")])]
    raw := [(.str "actions", .list [.ofFields [("t:op",
      .mapping [(.int 5, .str "a"), (.str "x", .str "b")])]])] }
  have hread : Step.ofValue "step" v = .ok s := by cbv
  have hdescribe : s.describe = .error .mistyped := by cbv
  exact ⟨s, hread, hdescribe, by simp [hdescribe]⟩

end Reflash
