import Reflash.Proofs.Acceptance
import Reflash.Proofs.Showing

set_option autoImplicit false

/-! # The normal form of a step

A step keeps the mapping that it was read from, with its actions, also where it was described by its
type. `Step.Makes` says what a mapping and a step have in common, and reading is the same in either
direction (`Step.ofEntries_eq_ok_iff`). So the kept mapping is a normal form: it is read as the same step
wherever it stands, and a typed step is read as any mapping that says the same with an action
(`Step.normal_form`). -/

namespace Reflash

namespace Step

/-! ## What a step and its mapping have in common -/

/-- The fields of the mapping are those of the step. -/
structure Makes (raw : Entries) (s : Step) : Prop where
  actions : (raw.fieldD "actions").orElse (.list []) = .list (s.actions.map Action.toValue)
  expression : Condition.Expression (raw.fieldD "condition")
  condition : s.condition = (raw.fieldD "condition").orElse .null
  optional : s.optional = (raw.fieldD "optional").truth
  fallback : (raw.fieldD "fallback").orElse (.list []) = .list (s.fallback.map Action.toValue)
  resumable : s.resumable = (raw.fieldD "resumable").truth
  raw : s.raw = raw

/-- The actions that a fallback lists; what counts as false lists none. -/
def fallbackOf (path : String) (v : Value) : Fallible (List Action) :=
  if v.truth then Action.listOf path v else .ok []

theorem fallbackOf_eq_ok_iff {path : String} {v : Value} {as : List Action} :
    fallbackOf path v = .ok as ↔ v.orElse (.list []) = .list (as.map Action.toValue) := by
  unfold fallbackOf Value.orElse
  split
  · exact Action.listOf_eq_ok_iff
  · cases as <;> simp

theorem ofEntries_eq (path : String) (raw : Entries) : ofEntries path raw = do
    Condition.validate (path ++ ".condition") (raw.fieldD "condition")
    let actions ← Action.listOf (path ++ ".actions") ((raw.fieldD "actions").orElse (.list []))
    let fallback ← fallbackOf (path ++ ".fallback") (raw.fieldD "fallback")
    return {
      actions
      condition := (raw.fieldD "condition").orElse .null
      optional := (raw.fieldD "optional").truth
      fallback
      resumable := (raw.fieldD "resumable").truth
      raw } := by
  unfold ofEntries fallbackOf
  cases hfallback : (raw.fieldD "fallback").truth
  · simp only [hfallback, Bool.false_eq_true, if_false]
    rfl
  · simp only [hfallback, if_true]

/-- A mapping is read as the step with its fields, wherever it stands. -/
theorem ofEntries_eq_ok_iff {path : String} {raw : Entries} {s : Step} :
    ofEntries path raw = .ok s ↔ Makes raw s := by
  rw [ofEntries_eq]
  simp only [bind, Except.bind, pure, Except.pure]
  cases hcondition : Condition.validate (path ++ ".condition") (raw.fieldD "condition") with
  | error e =>
    refine iff_of_false (by simp) fun h => ?_
    cases hcondition.symm.trans (Condition.validate_eq_ok_iff.mpr h.expression)
  | ok u =>
  cases hactions : Action.listOf (path ++ ".actions") ((raw.fieldD "actions").orElse (.list [])) with
  | error e =>
    refine iff_of_false (by simp) fun h => ?_
    cases hactions.symm.trans (Action.listOf_eq_ok_iff.mpr h.actions)
  | ok actions =>
  dsimp only
  cases hfallback : fallbackOf (path ++ ".fallback") (raw.fieldD "fallback") with
  | error e =>
    refine iff_of_false (by simp) fun h => ?_
    cases hfallback.symm.trans (fallbackOf_eq_ok_iff.mpr h.fallback)
  | ok fallback =>
  constructor
  · rintro ⟨⟩
    exact ⟨Action.listOf_eq_ok_iff.mp hactions, Condition.validate_eq_ok_iff.mp hcondition, rfl, rfl,
      fallbackOf_eq_ok_iff.mp hfallback, rfl, rfl⟩
  · intro h
    -- What was read of the two lists is what they list.
    cases hactions.symm.trans (Action.listOf_eq_ok_iff.mpr h.actions)
    cases hfallback.symm.trans (fallbackOf_eq_ok_iff.mpr h.fallback)
    rw [← h.condition, ← h.optional, ← h.resumable, ← h.raw]

/-! ## Typed steps -/

/-- What a typed step falls back on: its own fallback, if it says anything about one, or else the
instruction to the user that it may have. -/
def typedFallback (raw : Entries) : Option Value :=
  if raw.has "fallback" then raw.field? "fallback"
  else if (raw.fieldD "fallback_user_action").truth then
    some (.list [.ofFields [("core:user_action",
      .ofFields [("action", raw.fieldD "fallback_user_action")])]])
  else none

/-- A mapping says what a typed step says, with an action in place of the type. -/
structure Respells (raw plain : Entries) (a : Action) : Prop where
  condition : plain.field? "condition" = raw.field? "condition"
  optional : plain.field? "optional" = raw.field? "optional"
  resumable : plain.field? "resumable" = raw.field? "resumable"
  actions : plain.field? "actions" = some (.list [a.toValue])
  fallback : plain.field? "fallback" = typedFallback raw

theorem typedFallback_of_helper {raw : Entries} (hhas : raw.has "fallback" = false)
    (hhelper : (raw.fieldD "fallback_user_action").truth = true) :
    typedFallback raw = some (.list [.ofFields [("core:user_action",
      .ofFields [("action", raw.fieldD "fallback_user_action")])]]) := by
  rw [typedFallback, hhas, if_neg Bool.false_ne_true, if_pos hhelper]

theorem typedFallback_of_own {raw : Entries}
    (h : raw.has "fallback" = true ∨ (raw.fieldD "fallback_user_action").truth = false) :
    typedFallback raw = raw.field? "fallback" := by
  unfold typedFallback
  split
  · rfl
  · next hhas =>
    rw [Bool.not_eq_true] at hhas
    rw [hhas, or_iff_right Bool.false_ne_true] at h
    rw [h, if_neg Bool.false_ne_true, Entries.has_eq_false_iff.mp hhas]

/-- A typed step says with its action what it says without. -/
theorem actionForm_respells (type : String) (raw : Entries) :
    Respells raw (actionForm type raw)
      ⟨(typedAction type raw).1, (typedAction type raw).2⟩ := by
  have hshared (v : Value) {name : String} (hname : name ∈ sharedFields) :
      Entries.field? name (Entries.put (.str "actions") v
        (sharedFields.filterMap fun n => (raw.field? n).map fun v => (.str n, v))) =
      raw.field? name := by
    have hne : name ≠ "actions" := by
      rintro rfl
      exact absurd hname (by decide)
    rw [Entries.field?_put, if_neg hne, field?_picked, if_pos hname]
  unfold actionForm
  dsimp only
  split
  · next hhelper =>
    rw [Bool.and_eq_true, Bool.not_eq_true'] at hhelper
    refine ⟨?_, ?_, ?_, ?_, ?_⟩
    case refine_4 => rw [Entries.field?_put, if_neg (by decide), Entries.field?_put, if_pos rfl]; rfl
    case refine_5 => rw [Entries.field?_put, if_pos rfl, typedFallback_of_helper hhelper.2 hhelper.1]
    all_goals rw [Entries.field?_put, if_neg (by decide), hshared _ (by decide)]
  · next hown =>
    have hown : raw.has "fallback" = true ∨ (raw.fieldD "fallback_user_action").truth = false := by
      simpa [or_comm, imp_iff_or_not] using hown
    refine ⟨hshared _ (by decide), hshared _ (by decide), hshared _ (by decide), ?_, ?_⟩
    · rw [Entries.field?_put, if_pos rfl]
      rfl
    · rw [typedFallback_of_own hown]
      exact hshared _ (by decide)

/-- Mappings that say what a typed step says are read as the same step, but for the mapping. -/
theorem Respells.makes {raw plain plain' : Entries} {a : Action} {s : Step}
    (h : Respells raw plain a) (h' : Respells raw plain' a) (hs : Makes plain s) :
    Makes plain' { s with raw := plain' } where
  actions := by rw [Entries.fieldD, h'.actions, ← h.actions, ← Entries.fieldD]; exact hs.actions
  expression := by rw [Entries.fieldD, h'.condition, ← h.condition, ← Entries.fieldD]; exact hs.expression
  condition := by rw [Entries.fieldD, h'.condition, ← h.condition, ← Entries.fieldD]; exact hs.condition
  optional := by rw [Entries.fieldD, h'.optional, ← h.optional, ← Entries.fieldD]; exact hs.optional
  fallback := by rw [Entries.fieldD, h'.fallback, ← h.fallback, ← Entries.fieldD]; exact hs.fallback
  resumable := by rw [Entries.fieldD, h'.resumable, ← h.resumable, ← Entries.fieldD]; exact hs.resumable
  raw := rfl

theorem Respells.actions_eq {raw plain : Entries} {a : Action} {s : Step} (h : Respells raw plain a)
    (hs : Makes plain s) : s.actions = [a] := by
  have hlisted := hs.actions
  rw [Entries.fieldD, h.actions] at hlisted
  have hread : Action.listOf "" (.list [a.toValue]) = .ok [a] := Action.listOf_eq_ok_iff.mpr rfl
  exact Except.ok.inj ((Action.listOf_eq_ok_iff.mpr hlisted).symm.trans hread)

/-- A typed step has the one action that its type stands for. -/
theorem actions_of_typed {path type : String} {raw : Entries} {s : Step} {id payload : Value}
    (htyped : isTyped raw = true) (htype : (raw.fieldD "type").text = type)
    (haction : typedAction type raw = (id, payload)) (h : ofValue path (.mapping raw) = .ok s) :
    s.actions = [⟨id, payload⟩] := by
  rw [ofValue_typed htyped (writable_of_typed htyped h), htype, ofEntries_eq_ok_iff] at h
  have hactions := (actionForm_respells type raw).actions_eq h
  rwa [haction] at hactions

/-! ## The normal form -/

theorem Respells.isTyped_eq_false {raw plain : Entries} {a : Action} (h : Respells raw plain a) :
    isTyped plain = false := by
  rw [isTyped, Entries.has, Entries.has, h.actions]
  simp

/-- The mapping of a step is a normal form of it: it has actions and no type, and is read as the step
wherever it stands. The actions and the fallback are lists of mappings with one key each, where a
fallback that is there is not empty, and the condition is a valid one, which null is, too. -/
structure Normal (s : Step) : Prop where
  untyped : isTyped s.raw = false
  read_again : ∀ path, ofValue path (.mapping s.raw) = .ok s
  actions : (s.raw.fieldD "actions").orElse (.list []) = .list (s.actions.map Action.toValue)
  fallback : (s.raw.fieldD "fallback").orElse (.list []) = .list (s.fallback.map Action.toValue)
  fallback_eq_nil_iff : s.fallback = [] ↔ (s.raw.fieldD "fallback").truth = false
  condition : ∀ path, Condition.validate path s.condition = .ok ()

theorem Makes.read {path : String} {raw : Entries} {s : Step} (huntyped : isTyped raw = false)
    (h : Makes raw s) : ofValue path (.mapping raw) = .ok s := by
  rw [ofValue_plain huntyped]
  exact ofEntries_eq_ok_iff.mpr h

/-- A list that counts as false is empty, and is the only one to do so. -/
theorem eq_nil_iff_of_orElse {v : Value} {as : List Action}
    (h : v.orElse (.list []) = .list (as.map Action.toValue)) : as = [] ↔ v.truth = false := by
  unfold Value.orElse at h
  split at h
  · subst h
    simp [Value.truth]
  · next hfalse =>
    exact iff_of_true (List.map_eq_nil_iff.mp (Value.list.inj h).symm) (by simpa using hfalse)

theorem Makes.normal {s : Step} (huntyped : isTyped s.raw = false) (h : Makes s.raw s) :
    s.Normal where
  untyped := huntyped
  read_again _ := h.read huntyped
  actions := h.actions
  fallback := h.fallback
  fallback_eq_nil_iff := eq_nil_iff_of_orElse h.fallback
  condition path := by
    rw [h.condition]
    exact validate_orElse_null (Condition.validate_eq_ok_iff.mpr h.expression)

/-- Whatever is read as a step is read in its normal form, which is the mapping itself unless it is typed.
A typed step has one action, and is read as any mapping is that says the same with this action in place
of the type; its fallback is its own, or else the instruction to the user that it may have. -/
theorem normal_form {path : String} {raw : Entries} {s : Step}
    (h : ofValue path (.mapping raw) = .ok s) :
    s.Normal ∧ (isTyped raw = false → s.raw = raw) ∧
    (isTyped raw = true → ∃ a, s.actions = [a] ∧ Respells raw s.raw a ∧
      ∀ plain, Respells raw plain a → ∀ path',
        ofValue path' (.mapping plain) = .ok { s with raw := plain }) := by
  cases htyped : isTyped raw with
  | false =>
    rw [ofValue_plain htyped, ofEntries_eq_ok_iff] at h
    obtain rfl := h.raw
    exact ⟨h.normal htyped, fun _ => rfl, fun htrue => absurd htrue Bool.false_ne_true⟩
  | true =>
    rw [ofValue_typed htyped (writable_of_typed htyped h), ofEntries_eq_ok_iff] at h
    have hrespells := actionForm_respells (raw.fieldD "type").text raw
    have hraw := h.raw
    rw [← hraw] at h hrespells
    refine ⟨h.normal hrespells.isTyped_eq_false, fun hfalse => absurd hfalse.symm Bool.false_ne_true,
      fun _ => ⟨_, hrespells.actions_eq h, hrespells, fun plain hplain _ => ?_⟩⟩
    exact (hrespells.makes hplain h).read hplain.isTyped_eq_false

/-- A typed step with an instruction to the user has the same fallback as a step with an action that names
it. -/
theorem typed_step_normalized :
    let condition : Value := .ofFields [("var", .str "wipe"), ("value", .bool true)]
    let action : Action := .named "adb:format" (.ofFields [("partition", .str "cache")])
    let raw : Entries := [(.str "type", .str "adb:format"), (.str "partition", .str "cache"),
      (.str "fallback_user_action", .str "recovery"), (.str "optional", .int 0), (.str "note", .null),
      (.str "condition", condition)]
    let plain : Entries := [(.str "fallback", .list [.ofFields [("core:user_action",
        .ofFields [("action", .str "recovery")])]]), (.str "actions", .list [action.toValue]),
      (.str "optional", .int 0), (.str "condition", condition)]
    ∃ s, ofValue "step" (.mapping raw) = .ok s ∧ s.Normal ∧ s.actions = [action] ∧
      s.fallback = [.named "core:user_action" (.ofFields [("action", .str "recovery")])] ∧
      ofValue "" (.mapping plain) = .ok { s with raw := plain } := by
  intro condition action raw plain
  let helper : Action := .named "core:user_action" (.ofFields [("action", .str "recovery")])
  have hread : ofValue "step" (.mapping raw) = .ok {
      actions := [action], condition, fallback := [helper]
      raw := [(.str "condition", condition), (.str "optional", .int 0),
        (.str "actions", .list [action.toValue]), (.str "fallback", .list [helper.toValue])] } := by
    cbv
  obtain ⟨hnormal, -, htyped⟩ := normal_form hread
  obtain ⟨a, hactions, -, hplain⟩ := htyped (by cbv)
  cases hactions
  have hrespells : Respells raw plain action := ⟨by cbv, by cbv, by cbv, by cbv, by cbv⟩
  exact ⟨_, hread, hnormal, rfl, rfl, hplain plain hrespells ""⟩

end Step

end Reflash
