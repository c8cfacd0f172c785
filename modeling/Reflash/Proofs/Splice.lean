import Reflash.Proofs.Reading

set_option autoImplicit false

/-! # Lists of steps taken apart

What is read off a document does not depend on where it stands: the place is only named when
something is refused (`Condition.validate_place`, `Step.ofValue_place`). So the steps of a list are
those of its parts, one after the other (`Step.listOf_append`). -/

namespace Reflash

/-! ## Conditions -/

namespace Condition

mutual

/-- A condition that is accepted in one place is accepted in any other. -/
theorem validate_place (path' : String) : (path : String) → (v : Value) →
    validate path v = .ok () → validate path' v = .ok ()
  | _, .null, _ => rfl
  | path, .mapping es, h => by
    rw [validate] at h ⊢
    split at h
    · split at h
      · next hvar => exact if_pos hvar
      · cases h
    · exact validateOperand_place path' path es h
    · exact validateChildren_place path' path _ es h
    · cases h
  | _, .bool _, h | _, .int _, h | _, .float _, h | _, .minusNaN, h | _, .str _, h
  | _, .bytes _, h | _, .date _, h | _, .dateTime _, h | _, .tuple _, h | _, .list _, h
  | _, .set _, h => by cases h

theorem validateOperand_place (path' : String) : (path : String) → (es : List (Value × Value)) →
    validateOperand path es = .ok () → validateOperand path' es = .ok ()
  | _, [], _ => rfl
  | path, (k, v) :: es, h => by
    by_cases hk : Value.same (.str "NOT") k
    · cases v with
      | null =>
        rw [validateOperand, if_pos hk] at h
        cases h
      | _ =>
        rw [validateOperand, if_pos hk] at h ⊢
        · exact validate_place _ _ _ h
        all_goals exact fun hv => Value.noConfusion hv
    · rw [validateOperand_of_ne hk] at h ⊢
      exact validateOperand_place path' path es h

theorem validateChildren_place (path' : String) : (path op : String) →
    (es : List (Value × Value)) →
    validateChildren path op es = .ok () → validateChildren path' op es = .ok ()
  | _, _, [], _ => rfl
  | path, op, (k, v) :: es, h => by
    by_cases hk : Value.same (.str op) k
    · cases v with
      | list xs =>
        rw [validateChildren, if_pos hk] at h ⊢
        exact validateEach_place path' 0 path op 0 xs h
      | _ =>
        rw [validateChildren, if_pos hk] at h
        · cases h
        · exact fun xs hxs => Value.noConfusion hxs
    · rw [validateChildren_of_ne hk] at h ⊢
      exact validateChildren_place path' path op es h

theorem validateEach_place (path' : String) (i' : Nat) : (path op : String) → (i : Nat) →
    (vs : List Value) → validateEach path op i vs = .ok () → validateEach path' op i' vs = .ok ()
  | _, _, _, [], _ => rfl
  | path, op, i, v :: vs, h => by
    rw [validateEach] at h ⊢
    split at h
    · cases h
    · next hv =>
      rw [validate_place (childPath path' op i') _ v hv]
      exact validateEach_place path' (i' + 1) path op (i + 1) vs h

end

end Condition

/-! ## Actions -/

namespace Action

theorem ofItems_place {path path' : String} {i i' : Nat} {vs : List Value} {as : List Action}
    (h : ofItems path i vs = .ok as) : ofItems path' i' vs = .ok as := by
  fun_induction ofItems path i vs generalizing i' as with
  | case1 => exact h
  | case2 i id payload vs ih =>
    cases hrest : ofItems path (i + 1) vs with
    | error e =>
      rw [hrest] at h
      cases h
    | ok rest =>
      rw [hrest] at h
      rw [ofItems, ih hrest]
      exact h
  | case3 => cases h

theorem listOf_place {path path' : String} {v : Value} {as : List Action}
    (h : listOf path v = .ok as) : listOf path' v = .ok as := by
  unfold listOf at h ⊢
  split at h
  · exact ofItems_place h
  · cases h

end Action

/-! ## Steps -/

namespace Step

theorem ofEntries_place {path path' : String} {raw : Entries} {s : Step}
    (h : ofEntries path raw = .ok s) : ofEntries path' raw = .ok s := by
  unfold ofEntries at h ⊢
  simp only [bind, Except.bind, pure, Except.pure] at h ⊢
  cases hv : Condition.validate (path ++ ".condition") (raw.fieldD "condition") with
  | error e =>
    rw [hv] at h
    cases h
  | ok _ =>
    rw [hv] at h
    rw [Condition.validate_place (path' ++ ".condition") _ _ hv]
    dsimp only at h ⊢
    cases hactions : Action.listOf (path ++ ".actions")
        ((raw.fieldD "actions").orElse (.list [])) with
    | error e =>
      rw [hactions] at h
      cases h
    | ok actions =>
      rw [hactions] at h
      rw [Action.listOf_place hactions]
      dsimp only at h ⊢
      split
      · next hfallback =>
        rw [if_pos hfallback] at h
        cases hread : Action.listOf (path ++ ".fallback") (raw.fieldD "fallback") with
        | error e =>
          rw [hread] at h
          cases h
        | ok fallback =>
          rw [hread] at h
          rw [Action.listOf_place hread]
          exact h
      · next hfallback =>
        rw [if_neg hfallback] at h
        exact h

/-- A step that is read in one place is read the same in any other. -/
theorem ofValue_place {path path' : String} {v : Value} {s : Step}
    (h : ofValue path v = .ok s) : ofValue path' v = .ok s := by
  cases v with
  | mapping raw =>
    cases htyped : isTyped raw with
    | false =>
      rw [ofValue_plain htyped] at h ⊢
      exact ofEntries_place h
    | true =>
      have hw := writable_of_typed htyped h
      rw [ofValue_typed htyped hw] at h ⊢
      exact ofEntries_place h
  | _ => cases h

theorem ofItems_place {path path' : String} {i i' : Nat} {vs : List Value} {ss : List Step}
    (h : ofItems path i vs = .ok ss) : ofItems path' i' vs = .ok ss := by
  induction vs generalizing i i' ss with
  | nil => exact h
  | cons v vs ih =>
    obtain ⟨s, rest, hs, hrest, rfl⟩ := ofItems_cons_eq_ok.mp h
    exact ofItems_cons_eq_ok.mpr ⟨s, rest, ofValue_place hs, ih hrest, rfl⟩

theorem ofItems_append {path : String} {i : Nat} {vs vs' : List Value} {ss ss' : List Step}
    (h : ofItems path i vs = .ok ss) (h' : ofItems path i vs' = .ok ss') :
    ofItems path i (vs ++ vs') = .ok (ss ++ ss') := by
  induction vs generalizing i ss with
  | nil =>
    cases h
    exact h'
  | cons v vs ih =>
    obtain ⟨s, rest, hs, hrest, rfl⟩ := ofItems_cons_eq_ok.mp h
    exact ofItems_cons_eq_ok.mpr ⟨s, rest ++ ss', hs, ih hrest (ofItems_place h'), rfl⟩

/-- The steps of a list are those of its parts, one after the other. -/
theorem listOf_append {path : String} {vs vs' : List Value} {ss ss' : List Step}
    (h : listOf path (.list vs) = .ok ss) (h' : listOf path (.list vs') = .ok ss') :
    listOf path (.list (vs ++ vs')) = .ok (ss ++ ss') :=
  ofItems_append h h'

end Step

end Reflash
