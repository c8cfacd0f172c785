import Mathlib
import Reflash.Proofs.Expression

set_option autoImplicit false

/-! # What conditions mean

A condition stands for a boolean under given settings (`Condition.Means`): null is true, `AND`, `OR`
and `NOT` are the connectives, and a leaf asks whether its variable is there with its value. Evaluation
can fail in one way only. A part that is no condition cannot occur once a condition was validated, but
a variable that cannot be a key can: validation does not look at what a leaf names. So a validated
condition either evaluates to what it means, or asks about something that is no key, and then fails
(`Condition.evaluate_of_accepted`). -/

namespace Reflash

namespace Condition

/-! ## Evaluation of nodes and leaves -/

mutual

theorem eval_error (settings : Entries) : (c : Condition) → {e : Fault} →
    eval settings c = .error e → e = .mistyped
  | .always, _, h => by cases h
  | .malformed, _, h => by
    cases h
    rfl
  | .holds var value, _, h => by
    rw [eval] at h
    split at h
    · cases h
    · cases h
      rfl
  | .negation c, _, h => by
    rw [eval] at h
    cases hc : eval settings c with
    | ok b => simp [hc, Except.map] at h
    | error e =>
      simp only [hc, Except.map, Except.error.injEq] at h
      exact h ▸ eval_error settings c hc
  | .all cs, _, h | .any cs, _, h => by
    rw [eval] at h
    cases hcs : evalAll settings cs with
    | ok bs => simp [hcs, Except.map] at h
    | error e =>
      simp only [hcs, Except.map, Except.error.injEq] at h
      exact h ▸ evalAll_error settings cs hcs

theorem evalAll_error (settings : Entries) : (cs : List Condition) → {e : Fault} →
    evalAll settings cs = .error e → e = .mistyped
  | [], _, h => by cases h
  | c :: cs, _, h => by
    rw [evalAll] at h
    cases hc : eval settings c with
    | error e =>
      simp only [hc, Except.error.injEq] at h
      exact h ▸ eval_error settings c hc
    | ok b =>
      cases hcs : evalAll settings cs with
      | ok bs => simp [hc, hcs, Except.map] at h
      | error e =>
        simp only [hc, hcs, Except.map, Except.error.injEq] at h
        exact h ▸ evalAll_error settings cs hcs

end

/-- Whether a value can be evaluated as a condition. -/
def decided (settings : Entries) (e : Value) : Bool :=
  (evaluate e settings).isOk

/-- What a value evaluates to as a condition, if it can be evaluated. -/
def verdict (settings : Entries) (e : Value) : Bool :=
  (evaluate e settings).toOption.getD false

variable {settings : Entries}

theorem evaluate_eq (settings : Entries) (e : Value) : evaluate e settings =
    if decided settings e then .ok (verdict settings e) else .error .mistyped := by
  unfold decided verdict
  cases h : evaluate e settings with
  | ok b => rfl
  | error c =>
    cases eval_error settings _ h
    rfl

theorem evaluate_eq_ok_iff {e : Value} {b : Bool} :
    evaluate e settings = .ok b ↔ decided settings e = true ∧ verdict settings e = b := by
  rw [evaluate_eq]
  split
  · next h => simp [h]
  · next h => simp [h]

theorem evaluate_eq_error_iff {e : Value} :
    evaluate e settings = .error .mistyped ↔ decided settings e = false := by
  rw [evaluate_eq]
  split
  · next h => simp [h]
  · next h => simp [h]

/-- Children are evaluated one and all. -/
theorem evalAll_map_read (settings : Entries) (xs : List Value) :
    evalAll settings (xs.map read) =
      if xs.all (decided settings) then .ok (xs.map (verdict settings)) else .error .mistyped := by
  induction xs with
  | nil => rfl
  | cons x xs ih =>
    have hx : eval settings (read x) = _ := evaluate_eq settings x
    rw [List.map_cons, evalAll, hx, ih]
    cases hd : decided settings x with
    | false => simp [hd]
    | true => cases h : xs.all (decided settings) <;> simp [hd, h, Except.map]

theorem Node.evaluate_all {xs : List Value} {e : Value} (h : Node "AND" (.list xs) e) :
    evaluate e settings =
      if xs.all (decided settings) then .ok (xs.all (verdict settings)) else .error .mistyped := by
  rw [evaluate, h.read_all, eval, evalAll_map_read]
  split
  · simp [Except.map]
  · rfl

theorem Node.evaluate_any {xs : List Value} {e : Value} (h : Node "OR" (.list xs) e) :
    evaluate e settings =
      if xs.all (decided settings) then .ok (xs.any (verdict settings)) else .error .mistyped := by
  rw [evaluate, h.read_any, eval, evalAll_map_read]
  split
  · simp [Except.map]
  · rfl

theorem Node.evaluate_negation {x e : Value} (h : Node "NOT" x e) :
    evaluate e settings = (evaluate x settings).map (!·) := by
  rw [evaluate, h.read_negation, eval, evaluate]

theorem Leaf.evaluate_eq {var value e : Value} (h : Leaf var value e) (hkey : var.isKey) :
    evaluate e settings = .ok (match Entries.get? var settings with
      | some actual => actual.same value
      | none => false) := by
  rw [evaluate, h.read_eq, eval]
  exact if_pos hkey

theorem Leaf.evaluate_of_not_key {var value e : Value} (h : Leaf var value e)
    (hkey : var.isKey = false) : evaluate e settings = .error .mistyped := by
  rw [evaluate, h.read_eq, eval, hkey]
  rfl

/-! ## Variables -/

mutual

/-- The variables that a condition asks about. -/
def vars : Condition → List Value
  | .holds var _ => [var]
  | .all cs | .any cs => varsAll cs
  | .negation c => vars c
  | .always | .malformed => []

/-- The variables that several conditions ask about. -/
def varsAll : List Condition → List Value
  | [] => []
  | c :: cs => vars c ++ varsAll cs

end

theorem mem_varsAll {var : Value} {xs : List Value} :
    var ∈ varsAll (xs.map read) ↔ ∃ x ∈ xs, var ∈ (read x).vars := by
  induction xs with
  | nil => simp [varsAll]
  | cons x xs ih => simp [varsAll, ih]

theorem Node.mem_vars_all {xs : List Value} {e var : Value} (h : Node "AND" (.list xs) e) :
    var ∈ (read e).vars ↔ ∃ x ∈ xs, var ∈ (read x).vars := by
  rw [h.read_all, vars, mem_varsAll]

theorem Node.mem_vars_any {xs : List Value} {e var : Value} (h : Node "OR" (.list xs) e) :
    var ∈ (read e).vars ↔ ∃ x ∈ xs, var ∈ (read x).vars := by
  rw [h.read_any, vars, mem_varsAll]

theorem Node.vars_negation {x e : Value} (h : Node "NOT" x e) : (read e).vars = (read x).vars := by
  rw [h.read_negation, vars]

theorem Leaf.vars_eq {var value e : Value} (h : Leaf var value e) : (read e).vars = [var] := by
  rw [h.read_eq, vars]

/-! ## Meaning -/

/-- What a value means as a condition under the settings. -/
inductive Means (settings : Entries) : Value → Bool → Prop
  | null : Means settings .null true
  | all {xs : List Value} {e : Value} {f : Value → Bool} (h : Node "AND" (.list xs) e)
    (hxs : ∀ x ∈ xs, Means settings x (f x)) : Means settings e (xs.all f)
  | any {xs : List Value} {e : Value} {f : Value → Bool} (h : Node "OR" (.list xs) e)
    (hxs : ∀ x ∈ xs, Means settings x (f x)) : Means settings e (xs.any f)
  | negation {x e : Value} {b : Bool} (h : Node "NOT" x e) (hx : Means settings x b) :
    Means settings e (!b)
  | leaf {var value e : Value} {b : Bool} (h : Leaf var value e)
    (hb : b = true ↔ ∃ actual, Entries.get? var settings = some actual ∧ actual.same value) :
    Means settings e b

/-- What means something evaluates to that, if it asks about keys only. -/
theorem Means.evaluate {e : Value} {b : Bool} (h : Means settings e b)
    (hkeys : ∀ var ∈ (read e).vars, var.isKey) : evaluate e settings = .ok b := by
  induction h with
  | null => rfl
  | @all xs e f h _ ih =>
    have children : ∀ x ∈ xs, decided settings x = true ∧ verdict settings x = f x := fun x hx =>
      evaluate_eq_ok_iff.mp (ih x hx fun var hvar => hkeys var (h.mem_vars_all.mpr ⟨x, hx, hvar⟩))
    rw [h.evaluate_all, if_pos (List.all_eq_true.mpr fun x hx => (children x hx).1)]
    have hall : xs.all (verdict settings) = true ↔ xs.all f = true := by
      simp only [List.all_eq_true]
      exact forall₂_congr fun x hx => by rw [(children x hx).2]
    exact congrArg _ (Bool.eq_iff_iff.mpr hall)
  | @any xs e f h _ ih =>
    have children : ∀ x ∈ xs, decided settings x = true ∧ verdict settings x = f x := fun x hx =>
      evaluate_eq_ok_iff.mp (ih x hx fun var hvar => hkeys var (h.mem_vars_any.mpr ⟨x, hx, hvar⟩))
    rw [h.evaluate_any, if_pos (List.all_eq_true.mpr fun x hx => (children x hx).1)]
    have hany : xs.any (verdict settings) = true ↔ xs.any f = true := by
      simp only [List.any_eq_true]
      exact exists_congr fun x => and_congr_right fun hx => by rw [(children x hx).2]
    exact congrArg _ (Bool.eq_iff_iff.mpr hany)
  | negation h _ ih =>
    rw [h.evaluate_negation, ih fun var hvar => hkeys var (h.vars_negation ▸ hvar)]
    rfl
  | leaf h hb =>
    rw [h.evaluate_eq (hkeys _ (by simp [h.vars_eq]))]
    refine congrArg _ (Bool.eq_iff_iff.mpr ?_)
    rw [hb]
    split
    · next actual hactual => simp [hactual]
    · next hnone => simp [hnone]

theorem Means.verdict_eq {e : Value} {b : Bool} (h : Means settings e b)
    (hkeys : ∀ var ∈ (read e).vars, var.isKey) : verdict settings e = b :=
  (evaluate_eq_ok_iff.mp (h.evaluate hkeys)).2

/-- A condition that asks about keys only means what it evaluates to. -/
theorem Expression.means {e : Value} (h : Expression e) (hkeys : ∀ var ∈ (read e).vars, var.isKey) :
    Means settings e (verdict settings e) := by
  induction h with
  | null => exact .null
  | all h _ ih =>
    have hmeans := Means.all h fun x hx => ih x hx fun var hvar =>
      hkeys var (h.mem_vars_all.mpr ⟨x, hx, hvar⟩)
    exact (hmeans.verdict_eq hkeys).symm ▸ hmeans
  | any h _ ih =>
    have hmeans := Means.any h fun x hx => ih x hx fun var hvar =>
      hkeys var (h.mem_vars_any.mpr ⟨x, hx, hvar⟩)
    exact (hmeans.verdict_eq hkeys).symm ▸ hmeans
  | negation h _ _ ih =>
    have hmeans := Means.negation h (ih fun var hvar => hkeys var (h.vars_negation ▸ hvar))
    exact (hmeans.verdict_eq hkeys).symm ▸ hmeans
  | @leaf var value e h =>
    have hmeans : Means settings e (decide (∃ actual, Entries.get? var settings = some actual ∧
        actual.same value)) := .leaf h (by simp)
    exact (hmeans.verdict_eq hkeys).symm ▸ hmeans

/-- A validated condition that asks about keys has a value under all settings. -/
theorem evaluate_of_validate {path : String} {v : Value} (h : validate path v = .ok ())
    (hkeys : ∀ x ∈ (read v).vars, x.isKey) (settings : Entries) :
    ∃ b, evaluate v settings = .ok b :=
  ⟨_, ((expression_of_validate path v h).means hkeys).evaluate hkeys⟩

/-- Every child is evaluated, so one question about what is no key fails the whole condition. -/
theorem Expression.fails {e : Value} (h : Expression e)
    (hkeys : ∃ var ∈ (read e).vars, var.isKey = false) :
    evaluate e settings = .error .mistyped := by
  have child {xs : List Value} {x : Value} (hx : x ∈ xs)
      (hfails : evaluate x settings = .error .mistyped) : ¬xs.all (decided settings) = true :=
    fun hall => by
      have hdecided := List.all_eq_true.mp hall x hx
      rw [evaluate_eq_error_iff.mp hfails] at hdecided
      cases hdecided
  obtain ⟨var, hvar, hkey⟩ := hkeys
  induction h with
  | null => cases hvar
  | all h _ ih =>
    obtain ⟨x, hx, hvar⟩ := h.mem_vars_all.mp hvar
    rw [h.evaluate_all, if_neg (child hx (ih x hx hvar))]
  | any h _ ih =>
    obtain ⟨x, hx, hvar⟩ := h.mem_vars_any.mp hvar
    rw [h.evaluate_any, if_neg (child hx (ih x hx hvar))]
  | negation h _ _ ih =>
    rw [h.evaluate_negation, ih (h.vars_negation ▸ hvar)]
    rfl
  | leaf h =>
    cases List.mem_singleton.mp (h.vars_eq ▸ hvar)
    exact h.evaluate_of_not_key hkey

/-- A validated condition evaluates to what it means, whatever the settings are, unless it asks about
something that is no key, and then it fails. -/
theorem evaluate_of_accepted {path : String} {e : Value} (h : validate path e = .ok ())
    (settings : Entries) :
    ((∀ var ∈ (read e).vars, var.isKey) →
      ∃ b, evaluate e settings = .ok b ∧ ∀ b', Means settings e b' ↔ b' = b) ∧
    ((∃ var ∈ (read e).vars, var.isKey = false) → evaluate e settings = .error .mistyped) := by
  have hexpr := expression_of_validate path e h
  refine ⟨fun hkeys => ⟨verdict settings e, (hexpr.means hkeys).evaluate hkeys, fun b => ⟨?_, ?_⟩⟩,
    hexpr.fails⟩
  · exact fun hb => (hb.verdict_eq hkeys).symm
  · rintro rfl
    exact hexpr.means hkeys

/-- Numbers are compared as such, null is a child like any other, and what stands beside an operator
does not count. -/
theorem nested_condition_means :
    let e : Value := .ofFields [("AND", .list [.null, .ofFields [("var", "wipe"), ("value", .bool true)],
      .ofFields [("NOT", .ofFields [("OR", .list [.ofFields [("var", "slot")]])]), ("var", .list [])]])]
    let settings : Entries := [("wipe", .int 1)]
    validate "condition" e = .ok () ∧ (∀ var ∈ (read e).vars, var.isKey) ∧
      evaluate e settings = .ok true ∧ Means settings e true := by
  intro e settings
  have hvalid : validate "condition" e = .ok () := by cbv
  have hkeys : ∀ var ∈ (read e).vars, var.isKey := by decide +kernel
  have htrue : evaluate e settings = .ok true := by cbv
  obtain ⟨b, hb, hmeans⟩ := (evaluate_of_accepted hvalid settings).1 hkeys
  cases htrue.symm.trans hb
  exact ⟨hvalid, hkeys, htrue, (hmeans true).mpr rfl⟩

/-- Validation accepts a leaf that names a list, and evaluation fails on it. -/
theorem listed_variable_fails :
    let e : Value := .ofFields [("var", .list ["wipe"]), ("value", .bool true)]
    validate "condition" e = .ok () ∧ evaluate e [] = .error .mistyped := by
  intro e
  exact ⟨by cbv, by cbv⟩

end Condition

end Reflash
