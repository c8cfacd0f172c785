import Reflash.Proofs.Meaning
import Reflash.Proofs.Writing
import Reflash.Step.Basic

set_option autoImplicit false

/-! # What is read off a document

Whatever is refused while conditions, actions and steps are read is refused as a fault of the document,
but for a type without a text (`Step.Refusal`). A step that is read has a validated condition
(`Step.listOf_cases`), which has a value under all settings if it asks about keys only
(`Step.evaluate_of_legible`). -/

namespace Reflash

namespace Condition

/-! ## Refusals -/

mutual

theorem validate_error : (path : String) → (v : Value) → {e : Fault} →
    validate path v = .error e → ∃ message, e = .config message
  | _, .null, _, h => by cases h
  | path, .mapping es, e, h => by
    rw [validate] at h
    split at h
    · split at h
      · cases h
      · cases h
        exact ⟨_, rfl⟩
    · exact validateOperand_error path es h
    · exact validateChildren_error path _ es h
    · cases h
      exact ⟨_, rfl⟩
  | _, .bool _, _, h | _, .int _, _, h | _, .float _, _, h | _, .minusNaN, _, h
  | _, .str _, _, h | _, .bytes _, _, h | _, .date _, _, h | _, .dateTime _, _, h
  | _, .tuple _, _, h | _, .list _, _, h | _, .set _, _, h => by
    cases h
    exact ⟨_, rfl⟩

theorem validateOperand_error : (path : String) → (es : List (Value × Value)) → {e : Fault} →
    validateOperand path es = .error e → ∃ message, e = .config message
  | _, [], _, h => by cases h
  | path, (k, v) :: es, e, h => by
    by_cases hk : Value.same (.str "NOT") k
    · cases v with
      | null =>
        rw [validateOperand, if_pos hk] at h
        cases h
        exact ⟨_, rfl⟩
      | _ =>
        rw [validateOperand, if_pos hk] at h
        · exact validate_error _ _ h
        · exact fun hv => Value.noConfusion hv
    · rw [validateOperand_of_ne hk] at h
      exact validateOperand_error path es h

theorem validateChildren_error : (path op : String) → (es : List (Value × Value)) → {e : Fault} →
    validateChildren path op es = .error e → ∃ message, e = .config message
  | _, _, [], _, h => by cases h
  | path, op, (k, v) :: es, e, h => by
    by_cases hk : Value.same (.str op) k
    · cases v with
      | list xs =>
        rw [validateChildren, if_pos hk] at h
        exact validateEach_error path op 0 xs h
      | _ =>
        rw [validateChildren, if_pos hk] at h
        · cases h
          exact ⟨_, rfl⟩
        · exact fun xs hxs => Value.noConfusion hxs
    · rw [validateChildren_of_ne hk] at h
      exact validateChildren_error path op es h

theorem validateEach_error : (path op : String) → (i : Nat) → (vs : List Value) → {e : Fault} →
    validateEach path op i vs = .error e → ∃ message, e = .config message
  | _, _, _, [], _, h => by cases h
  | path, op, i, v :: vs, e, h => by
    rw [validateEach] at h
    split at h
    · next hv =>
      cases h
      exact validate_error _ v hv
    · exact validateEach_error path op (i + 1) vs h

end

end Condition

namespace Action

theorem ofItems_error {path : String} {i : Nat} {vs : List Value} {e : Fault}
    (h : ofItems path i vs = .error e) : ∃ message, e = .config message := by
  fun_induction ofItems path i vs with
  | case1 => cases h
  | case2 i id payload vs ih =>
    cases hrest : ofItems path (i + 1) vs with
    | ok as => simp [hrest, Except.map] at h
    | error e' =>
      simp only [hrest, Except.map] at h
      cases h
      exact ih hrest
  | case3 =>
    cases h
    exact ⟨_, rfl⟩

theorem listOf_error {path : String} {v : Value} {e : Fault} (h : listOf path v = .error e) :
    ∃ message, e = .config message := by
  unfold listOf at h
  split at h
  · exact ofItems_error h
  · cases h
    exact ⟨_, rfl⟩

theorem ofItems_eq_ok_iff {path : String} {i : Nat} {vs : List Value} {as : List Action} :
    ofItems path i vs = .ok as ↔ vs = as.map toValue := by
  fun_induction ofItems path i vs generalizing as with
  | case1 => simp [eq_comm]
  | case2 i id payload vs ih =>
    cases as with
    | nil => cases ofItems path (i + 1) vs <;> simp [Except.map]
    | cons a as =>
      rw [List.map_cons, List.cons.injEq, ← ih]
      cases hrest : ofItems path (i + 1) vs with
      | error e => simp [Except.map]
      | ok rest =>
        obtain ⟨id', payload'⟩ := a
        simp [Except.map, toValue]
  | case3 i v vs hne =>
    refine iff_of_false (by simp) fun h => ?_
    cases as with
    | nil => cases h
    | cons a as => exact hne _ _ (List.cons.inj h).1

/-- A value lists actions if it is the list of their mappings. -/
theorem listOf_eq_ok_iff {path : String} {v : Value} {as : List Action} :
    listOf path v = .ok as ↔ v = .list (as.map toValue) := by
  cases v with
  | list vs => rw [listOf, ofItems_eq_ok_iff, Value.list.injEq]
  | _ => simp [listOf]

end Action

namespace Step

/-- The condition of the step is validated. -/
def Validated (s : Step) : Prop :=
  ∃ path, Condition.validate path s.condition = .ok ()

theorem validate_orElse_null {path : String} {v : Value}
    (h : Condition.validate path v = .ok ()) :
    Condition.validate path (v.orElse .null) = .ok () := by
  unfold Value.orElse
  split
  · exact h
  · rfl

/-- A mapping is read as a step with a validated condition, or refused. -/
theorem ofEntries_cases (path : String) (raw : Entries) :
    (∃ s, ofEntries path raw = .ok s ∧ s.Validated) ∨
      ∃ message, ofEntries path raw = .error (.config message) := by
  unfold ofEntries
  simp only [bind, Except.bind, pure, Except.pure]
  cases hv : Condition.validate (path ++ ".condition") (raw.fieldD "condition") with
  | error e =>
    obtain ⟨message, rfl⟩ := Condition.validate_error _ _ hv
    exact .inr ⟨message, rfl⟩
  | ok _ =>
    dsimp only
    cases hactions : Action.listOf (path ++ ".actions")
        ((raw.fieldD "actions").orElse (.list [])) with
    | error e =>
      obtain ⟨message, rfl⟩ := Action.listOf_error hactions
      exact .inr ⟨message, rfl⟩
    | ok actions =>
      dsimp only
      split
      · cases hfallback : Action.listOf (path ++ ".fallback") (raw.fieldD "fallback") with
        | error e =>
          obtain ⟨message, rfl⟩ := Action.listOf_error hfallback
          exact .inr ⟨message, rfl⟩
        | ok fallback => exact .inl ⟨_, rfl, _, validate_orElse_null hv⟩
      · exact .inl ⟨_, rfl, _, validate_orElse_null hv⟩

/-- What a step is refused with: as a flaw of the document, or because its type cannot be written. -/
inductive Refusal : Fault → Prop
  | flaw (message : String) : Refusal (.config message)
  | untold : Refusal .unwritable

theorem ofValue_typed {path : String} {raw : Entries} (htyped : isTyped raw = true)
    (hw : (Entries.fieldD "type" raw).writable = true) :
    ofValue path (.mapping raw) =
      ofEntries path (actionForm (Entries.fieldD "type" raw).text raw) := by
  rw [ofValue, if_pos htyped, Value.shown_of_writable hw]
  rfl

theorem ofValue_untold {path : String} {raw : Entries} (htyped : isTyped raw = true)
    (hw : (Entries.fieldD "type" raw).writable = false) :
    ofValue path (.mapping raw) = .error .unwritable := by
  rw [ofValue, if_pos htyped, Value.shown_of_unwritable hw]
  rfl

/-- The type of a step that was read can be written. -/
theorem writable_of_typed {path : String} {raw : Entries} {s : Step} (htyped : isTyped raw = true)
    (h : ofValue path (.mapping raw) = .ok s) : (Entries.fieldD "type" raw).writable = true := by
  cases hw : (Entries.fieldD "type" raw).writable with
  | true => rfl
  | false => cases (ofValue_untold htyped hw).symm.trans h

theorem ofValue_plain {path : String} {raw : Entries} (htyped : isTyped raw = false) :
    ofValue path (.mapping raw) = ofEntries path raw := by
  rw [ofValue, if_neg (Bool.eq_false_iff.mp htyped)]

theorem ofValue_cases (path : String) (v : Value) :
    (∃ s, ofValue path v = .ok s ∧ s.Validated) ∨ ∃ e, ofValue path v = .error e ∧ Refusal e := by
  have entries (raw : Entries) : (∃ s, ofEntries path raw = .ok s ∧ s.Validated) ∨
      ∃ e, ofEntries path raw = .error e ∧ Refusal e := by
    rcases ofEntries_cases path raw with h | ⟨message, hm⟩
    · exact .inl h
    · exact .inr ⟨_, hm, .flaw message⟩
  cases v with
  | mapping raw =>
    cases htyped : isTyped raw with
    | false =>
      rw [ofValue_plain htyped]
      exact entries raw
    | true =>
      cases hw : (Entries.fieldD "type" raw).writable with
      | true =>
        rw [ofValue_typed htyped hw]
        exact entries _
      | false => exact .inr ⟨_, ofValue_untold htyped hw, .untold⟩
  | _ => exact .inr ⟨_, rfl, .flaw _⟩

theorem ofItems_cons_eq_ok {path : String} {i : Nat} {v : Value} {vs : List Value}
    {ss : List Step} : ofItems path i (v :: vs) = .ok ss ↔
      ∃ s rest, ofValue (path ++ "[" ++ toString i ++ "]") v = .ok s ∧
        ofItems path (i + 1) vs = .ok rest ∧ ss = s :: rest := by
  rw [ofItems]
  constructor
  · intro h
    split at h
    · cases h
    · next s hs =>
      cases hrest : ofItems path (i + 1) vs with
      | error e =>
        rw [hrest] at h
        cases h
      | ok rest =>
        rw [hrest] at h
        cases h
        exact ⟨s, rest, hs, rfl, rfl⟩
  · rintro ⟨s, rest, hs, hrest, rfl⟩
    rw [hs, hrest]
    rfl

theorem ofItems_mem {path : String} {i : Nat} {vs : List Value} {ss : List Step}
    (h : ofItems path i vs = .ok ss) {s : Step} (hs : s ∈ ss) :
    ∃ v ∈ vs, ∃ path, ofValue path v = .ok s := by
  induction vs generalizing i ss with
  | nil =>
    cases h
    cases hs
  | cons v vs ih =>
    obtain ⟨first, rest, hfirst, hrest, rfl⟩ := ofItems_cons_eq_ok.mp h
    rcases List.mem_cons.mp hs with rfl | hs
    · exact ⟨v, by simp, _, hfirst⟩
    · obtain ⟨v', hv', hread⟩ := ih hrest hs
      exact ⟨v', by simp [hv'], hread⟩

theorem ofItems_cases (path : String) (i : Nat) (vs : List Value) :
    (∃ ss, ofItems path i vs = .ok ss ∧ ∀ s ∈ ss, s.Validated) ∨
      ∃ e, ofItems path i vs = .error e ∧ Refusal e := by
  induction vs generalizing i with
  | nil => exact .inl ⟨[], rfl, by simp⟩
  | cons v vs ih =>
    rw [ofItems]
    rcases ofValue_cases (path ++ "[" ++ toString i ++ "]") v with ⟨s, hs, hvalid⟩ | ⟨e, he, hrefusal⟩
    · rw [hs]
      rcases ih (i + 1) with ⟨ss, hss, hvalids⟩ | ⟨e, he, hrefusal⟩
      · rw [hss]
        exact .inl ⟨s :: ss, rfl, by simpa using ⟨hvalid, hvalids⟩⟩
      · rw [he]
        exact .inr ⟨e, rfl, hrefusal⟩
    · rw [he]
      exact .inr ⟨e, rfl, hrefusal⟩

/-- A value lists steps with validated conditions, or is refused. -/
theorem listOf_cases (path : String) (v : Value) :
    (∃ ss, listOf path v = .ok ss ∧ ∀ s ∈ ss, s.Validated) ∨
      ∃ e, listOf path v = .error e ∧ Refusal e := by
  unfold listOf
  split
  · exact .inl ⟨[], rfl, by simp⟩
  · exact ofItems_cases path 0 _
  · exact .inr ⟨_, rfl, .flaw _⟩

/-! ## What a step keeps of its mapping -/

/-- What a mapping that is read as a step is read as. -/
structure ReadAs (path : String) (raw : Entries) (s : Step) : Prop where
  actions : Action.listOf (path ++ ".actions") ((raw.fieldD "actions").orElse (.list [])) =
    .ok s.actions
  fallback : (s.fallback = [] ∧ (raw.fieldD "fallback").truth = false) ∨
    Action.listOf (path ++ ".fallback") (raw.fieldD "fallback") = .ok s.fallback

theorem ofEntries_readAs {path : String} {raw : Entries} {s : Step}
    (h : ofEntries path raw = .ok s) : ReadAs path raw s := by
  unfold ofEntries at h
  simp only [bind, Except.bind, pure, Except.pure] at h
  cases hv : Condition.validate (path ++ ".condition") (raw.fieldD "condition") with
  | error e =>
    rw [hv] at h
    cases h
  | ok _ =>
    rw [hv] at h
    dsimp only at h
    cases hactions : Action.listOf (path ++ ".actions")
        ((raw.fieldD "actions").orElse (.list [])) with
    | error e =>
      rw [hactions] at h
      cases h
    | ok actions =>
      rw [hactions] at h
      dsimp only at h
      split at h
      · cases hfallback : Action.listOf (path ++ ".fallback") (raw.fieldD "fallback") with
        | error e =>
          rw [hfallback] at h
          cases h
        | ok fallback =>
          rw [hfallback] at h
          cases h
          exact ⟨hactions, .inr hfallback⟩
      · next hfallback =>
        cases h
        exact ⟨hactions, .inl ⟨rfl, by simpa using hfallback⟩⟩

theorem ofEntries_raw {path : String} {raw : Entries} {s : Step} (h : ofEntries path raw = .ok s) :
    s.raw = raw := by
  unfold ofEntries at h
  simp only [bind, Except.bind, pure, Except.pure] at h
  repeat' split at h
  all_goals first | cases h; rfl | cases h

/-- The mapping that a step is read from is the value itself, or the form with actions that it
stands for. -/
theorem ofValue_raw {path : String} {v : Value} {s : Step} (h : ofValue path v = .ok s) :
    ofEntries path s.raw = .ok s ∧
      (v = .mapping s.raw ∨
        ∃ raw, v = .mapping raw ∧ s.raw = actionForm (Entries.fieldD "type" raw).text raw) := by
  cases v with
  | mapping raw =>
    cases htyped : isTyped raw with
    | false =>
      rw [ofValue_plain htyped] at h
      rw [ofEntries_raw h]
      exact ⟨h, .inl rfl⟩
    | true =>
      rw [ofValue_typed htyped (writable_of_typed htyped h)] at h
      rw [ofEntries_raw h]
      exact ⟨h, .inr ⟨raw, rfl, rfl⟩⟩
  | _ => cases h

/-- Whether the identifiers of all actions of the step, and of its fallback, can be written. -/
def isNamed (s : Step) : Bool :=
  (s.actions ++ s.fallback).all fun a => a.id.writable

theorem isNamed_iff {s : Step} : s.isNamed = true ↔
    (∀ a ∈ s.actions, a.id.writable = true) ∧ ∀ a ∈ s.fallback, a.id.writable = true := by
  simp [isNamed]

theorem named_of_writable {as : List Action}
    (h : (Value.list (as.map Action.toValue)).writable = true) : ∀ a ∈ as, a.id.writable = true := by
  intro a ha
  have ha := Value.writable_list.mp h _ (List.mem_map_of_mem ha)
  exact (Value.writable_mapping.mp ha _ List.mem_cons_self).1

/-- A step that is read from what can be written has names that can be written. -/
theorem named_of_ofEntries {path : String} {raw : Entries} {s : Step}
    (h : ofEntries path raw = .ok s) (hraw : (Value.mapping raw).writable = true) :
    s.isNamed = true := by
  have hread := ofEntries_readAs h
  refine isNamed_iff.mpr ⟨named_of_writable ?_, ?_⟩
  · rw [← Action.listOf_eq_ok_iff.mp hread.actions, Value.orElse]
    split
    · exact Value.writable_fieldD hraw "actions"
    · rfl
  · rcases hread.fallback with ⟨hnone, -⟩ | hfallback
    · simp [hnone]
    · refine named_of_writable ?_
      rw [← Action.listOf_eq_ok_iff.mp hfallback]
      exact Value.writable_fieldD hraw "fallback"

/-- So does a step that is read from a document and can be shown. -/
theorem named_of_shown {path : String} {v : Value} {s : Step} (h : ofValue path v = .ok s)
    {text : String} (hshown : s.describe = .ok text) : s.isNamed = true := by
  have hread := (ofValue_raw h).1
  refine named_of_ofEntries hread ?_
  cases hempty : s.raw.isEmpty with
  | true =>
    rw [List.isEmpty_iff.mp hempty]
    rfl
  | false =>
    unfold describe at hshown
    rw [hempty] at hshown
    exact (Value.document_ok_iff.mp ⟨text, hshown⟩).2

theorem named_of_listed {path : String} {v : Value} {ss : List Step} (h : listOf path v = .ok ss)
    {s : Step} (hs : s ∈ ss) (hshown : ∃ text, s.describe = .ok text) : s.isNamed = true := by
  obtain ⟨text, htext⟩ := hshown
  unfold listOf at h
  split at h
  · cases h
    cases hs
  · obtain ⟨v, -, path', hread⟩ := ofItems_mem h hs
    exact named_of_shown hread htext
  · cases h

/-! ## Steps that can be judged and shown -/

theorem describe_error {s : Step} {e : Fault} (h : s.describe = .error e) :
    e = .mistyped ∨ e = .unwritable := by
  rcases Value.document_error h with ⟨rfl, -⟩ | ⟨rfl, -⟩
  · exact .inl rfl
  · exact .inr rfl

/-- The condition of the step asks about keys only, and the step can be written. -/
structure Legible (s : Step) : Prop where
  keys : ∀ x ∈ (Condition.read s.condition).vars, x.isKey
  shown : ∃ text, s.describe = .ok text

/-- A step without a condition only has to be shown. -/
theorem Legible.unconditional {s : Step} {text : String} (hc : s.condition = .null)
    (h : s.describe = .ok text) : s.Validated ∧ s.Legible := by
  refine ⟨⟨"step", by rw [hc]; rfl⟩, ⟨fun x hx => ?_, ⟨text, h⟩⟩⟩
  rw [hc] at hx
  cases hx

theorem evaluate_of_legible {s : Step} (hvalid : s.Validated) (h : s.Legible)
    (settings : Entries) : ∃ b, Condition.evaluate s.condition settings = .ok b := by
  obtain ⟨path, hpath⟩ := hvalid
  exact Condition.evaluate_of_validate hpath h.keys settings

end Step

end Reflash
