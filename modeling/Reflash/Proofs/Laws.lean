import Reflash.Proofs.Meaning

set_option autoImplicit false

/-! # The algebra of conditions

A condition asks about the settings only through the variables it names (`Condition.eval_congr`), and
conditions obey the laws of booleans: children of `AND` and `OR` count as a set, two negations cancel,
and a negation moves over `AND` and `OR` as De Morgan says. The laws hold anywhere inside a condition
(`Condition.Rewrites`). They hold for failing evaluations as well, because every child is evaluated
whatever its siblings are, so nothing has to be assumed about what a law produces: the negation of
null, say, cannot be written in a document, and still evaluates as it should. -/

namespace Reflash

namespace Condition

/-! ## Settings that agree -/

mutual

/-- Evaluation asks for the variables of a condition, and for nothing else. -/
theorem eval_congr {settings settings' : Entries} : (c : Condition) →
    (∀ var ∈ c.vars, Entries.get? var settings' = Entries.get? var settings) →
    eval settings' c = eval settings c
  | .always, _ | .malformed, _ => rfl
  | .holds var value, h => by rw [eval, eval, h var (by simp [vars])]
  | .negation c, h => by rw [eval, eval, eval_congr c h]
  | .all cs, h | .any cs, h => by rw [eval, eval, evalAll_congr cs h]

theorem evalAll_congr {settings settings' : Entries} : (cs : List Condition) →
    (∀ var ∈ varsAll cs, Entries.get? var settings' = Entries.get? var settings) →
    evalAll settings' cs = evalAll settings cs
  | [], _ => rfl
  | c :: cs, h => by
    rw [evalAll, evalAll, eval_congr c fun var hvar => h var (List.mem_append_left _ hvar),
      evalAll_congr cs fun var hvar => h var (List.mem_append_right _ hvar)]

end

/-! ## The laws -/

/-- One condition can be turned into the other by the laws of booleans, applied anywhere inside. A node
may hold what it likes beside its operator. -/
inductive Rewrites : Value → Value → Prop
  | refl (e : Value) : Rewrites e e
  | symm {e e' : Value} (h : Rewrites e e') : Rewrites e' e
  | trans {e e' e'' : Value} (h : Rewrites e e') (h' : Rewrites e' e'') : Rewrites e e''
  /-- Children may change places and be repeated. -/
  | members {op : String} {xs ys : List Value} {e e' : Value} (hop : op = "AND" ∨ op = "OR")
    (h : Node op (.list xs) e) (h' : Node op (.list ys) e') (hsame : ∀ x, x ∈ xs ↔ x ∈ ys) :
    Rewrites e e'
  | doubleNegation {e n e' : Value} (h : Node "NOT" e n) (h' : Node "NOT" n e') : Rewrites e' e
  | deMorganAll {xs ys : List Value} {a n o : Value} (ha : Node "AND" (.list xs) a)
    (hn : Node "NOT" a n) (ho : Node "OR" (.list ys) o) (hys : List.Forall₂ (Node "NOT") xs ys) :
    Rewrites n o
  | deMorganAny {xs ys : List Value} {o n a : Value} (ho : Node "OR" (.list xs) o)
    (hn : Node "NOT" o n) (ha : Node "AND" (.list ys) a) (hys : List.Forall₂ (Node "NOT") xs ys) :
    Rewrites n a
  /-- What holds of a child holds inside the node. -/
  | child {op : String} (before after : List Value) {x x' e e' : Value} (hop : op = "AND" ∨ op = "OR")
    (h : Node op (.list (before ++ x :: after)) e) (h' : Node op (.list (before ++ x' :: after)) e')
    (hx : Rewrites x x') : Rewrites e e'
  | operand {x x' e e' : Value} (h : Node "NOT" x e) (h' : Node "NOT" x' e') (hx : Rewrites x x') :
    Rewrites e e'

variable {settings : Entries}

/-- What `AND` and `OR` evaluate to depends on how their children are decided, taken together. -/
theorem Node.evaluate_congr {op : String} {xs ys : List Value} {e e' : Value}
    (hop : op = "AND" ∨ op = "OR") (h : Node op (.list xs) e) (h' : Node op (.list ys) e')
    (hdecided : xs.all (decided settings) = ys.all (decided settings))
    (hall : xs.all (verdict settings) = ys.all (verdict settings))
    (hany : xs.any (verdict settings) = ys.any (verdict settings)) :
    evaluate e settings = evaluate e' settings := by
  rcases hop with rfl | rfl
  · rw [h.evaluate_all, h'.evaluate_all, hdecided, hall]
  · rw [h.evaluate_any, h'.evaluate_any, hdecided, hany]

theorem all_congr_mem {xs ys : List Value} (hsame : ∀ x, x ∈ xs ↔ x ∈ ys) (f : Value → Bool) :
    xs.all f = ys.all f :=
  Bool.eq_iff_iff.mpr (by simp only [List.all_eq_true, hsame])

theorem any_congr_mem {xs ys : List Value} (hsame : ∀ x, x ∈ xs ↔ x ∈ ys) (f : Value → Bool) :
    xs.any f = ys.any f :=
  Bool.eq_iff_iff.mpr (by simp only [List.any_eq_true, hsame])

theorem decided_eq_of_evaluate_eq {e e' : Value} (h : evaluate e settings = evaluate e' settings) :
    decided settings e = decided settings e' := by
  rw [decided, decided, h]

theorem verdict_eq_of_evaluate_eq {e e' : Value} (h : evaluate e settings = evaluate e' settings) :
    verdict settings e = verdict settings e' := by
  rw [verdict, verdict, h]

theorem Node.decided_negation {x e : Value} (h : Node "NOT" x e) :
    decided settings e = decided settings x := by
  rw [decided, decided, h.evaluate_negation]
  cases evaluate x settings <;> rfl

theorem Node.verdict_negation {x e : Value} (h : Node "NOT" x e) (hx : decided settings x = true) :
    verdict settings e = !verdict settings x := by
  rw [verdict, h.evaluate_negation, evaluate_eq, if_pos hx]
  rfl

theorem decided_negations {xs ys : List Value} (h : List.Forall₂ (Node "NOT") xs ys) :
    ys.all (decided settings) = xs.all (decided settings) := by
  induction h with
  | nil => rfl
  | cons hx _ ih => rw [List.all_cons, List.all_cons, hx.decided_negation, ih]

theorem all_negations {xs ys : List Value} (h : List.Forall₂ (Node "NOT") xs ys)
    (hxs : xs.all (decided settings) = true) :
    ys.all (verdict settings) = !xs.any (verdict settings) := by
  induction h with
  | nil => rfl
  | cons hx _ ih =>
    rw [List.all_cons, Bool.and_eq_true] at hxs
    rw [List.all_cons, List.any_cons, hx.verdict_negation hxs.1, ih hxs.2, Bool.not_or]

theorem any_negations {xs ys : List Value} (h : List.Forall₂ (Node "NOT") xs ys)
    (hxs : xs.all (decided settings) = true) :
    ys.any (verdict settings) = !xs.all (verdict settings) := by
  induction h with
  | nil => rfl
  | cons hx _ ih =>
    rw [List.all_cons, Bool.and_eq_true] at hxs
    rw [List.any_cons, List.all_cons, hx.verdict_negation hxs.1, ih hxs.2, Bool.not_and]

/-- The laws leave evaluation as it is: the value, or the failure. -/
theorem Rewrites.evaluate_eq {e e' : Value} (h : Rewrites e e') (settings : Entries) :
    evaluate e settings = evaluate e' settings := by
  induction h with
  | refl => rfl
  | symm _ ih => exact ih.symm
  | trans _ _ ih ih' => exact ih.trans ih'
  | members hop h h' hsame =>
    exact h.evaluate_congr hop h' (all_congr_mem hsame _) (all_congr_mem hsame _)
      (any_congr_mem hsame _)
  | @doubleNegation e _ _ h h' =>
    rw [h'.evaluate_negation, h.evaluate_negation]
    cases evaluate e settings with
    | ok b => exact congrArg Except.ok (Bool.not_not b)
    | error _ => rfl
  | deMorganAll ha hn ho hys =>
    rw [hn.evaluate_negation, ha.evaluate_all, ho.evaluate_any, decided_negations hys]
    split
    · next hxs => exact congrArg Except.ok (any_negations hys hxs).symm
    · rfl
  | deMorganAny ho hn ha hys =>
    rw [hn.evaluate_negation, ho.evaluate_any, ha.evaluate_all, decided_negations hys]
    split
    · next hxs => exact congrArg Except.ok (all_negations hys hxs).symm
    · rfl
  | child before after hop h h' _ ih =>
    have hdecided := decided_eq_of_evaluate_eq ih
    have hverdict := verdict_eq_of_evaluate_eq ih
    refine h.evaluate_congr hop h' ?_ ?_ ?_
    · simp only [List.all_append, List.all_cons, hdecided]
    · simp only [List.all_append, List.all_cons, hverdict]
    · simp only [List.any_append, List.any_cons, hverdict]
  | operand h h' _ ih => rw [h.evaluate_negation, h'.evaluate_negation, ih]

/-- A validated condition that asks about keys evaluates to a boolean. All settings that agree on its
variables give that boolean, and so do all conditions that it can be rewritten to. -/
theorem evaluate_of_rewrites {path : String} {e : Value} (h : validate path e = .ok ())
    (hkeys : ∀ var ∈ (read e).vars, var.isKey) (settings : Entries) :
    ∃ b, evaluate e settings = .ok b ∧ ∀ settings' e',
      (∀ var ∈ (read e).vars, Entries.get? var settings' = Entries.get? var settings) →
      Rewrites e e' → evaluate e' settings' = .ok b := by
  obtain ⟨b, hb⟩ := evaluate_of_validate h hkeys settings
  refine ⟨b, hb, fun settings' e' hagree hrewrites => ?_⟩
  rw [← hrewrites.evaluate_eq settings', evaluate, eval_congr _ hagree]
  exact hb

/-- Inside an `AND` with a null child, the negation of an `OR` is written as an `AND` of negations that
are in another order, one of them twice. The other settings differ in what is not asked about. -/
theorem rewritten_condition_agrees :
    let leaf (var : String) : Value := .ofFields [("var", var), ("value", .bool true)]
    let not (x : Value) : Value := .ofFields [("NOT", x)]
    let either : Value := .ofFields [("note", .null), ("OR", .list [leaf "wipe", leaf "slot"])]
    let neither : Value := .ofFields
      [("AND", .list [not (leaf "slot"), not (leaf "wipe"), not (leaf "slot")])]
    let e : Value := .ofFields [("AND", .list [.null, not either])]
    let e' : Value := .ofFields [("AND", .list [.null, neither])]
    let settings : Entries := [("wipe", .bool true)]
    let settings' : Entries := [("bootstrap", .null), ("wipe", .bool true)]
    validate "condition" e = .ok () ∧ (∀ var ∈ (read e).vars, var.isKey) ∧ Rewrites e e' ∧
      evaluate e settings = .ok false ∧ evaluate e' settings' = .ok false := by
  intro leaf not either neither e e' settings settings'
  have hvalid : validate "condition" e = .ok () := by cbv
  have hkeys : ∀ var ∈ (read e).vars, var.isKey := by decide +kernel
  have hvars : (read e).vars = [.str "wipe", .str "slot"] := by cbv
  have hagree : ∀ var ∈ (read e).vars, Entries.get? var settings' = Entries.get? var settings := by
    rw [hvars]
    exact List.forall_mem_cons.mpr ⟨by cbv, List.forall_mem_singleton.mpr (by cbv)⟩
  have hfalse : evaluate e settings = .ok false := by cbv
  have negated (x : Value) : Node "NOT" x (not x) :=
    node_ofFields rfl (by simp [operators, List.lookup])
  have every (xs : List Value) : Node "AND" (.list xs) (.ofFields [("AND", .list xs)]) :=
    node_ofFields rfl (by simp [operators, List.lookup])
  have heither : Node "OR" (.list [leaf "wipe", leaf "slot"]) either :=
    node_ofFields rfl (by simp [operators, List.lookup])
  have hrewrites : Rewrites e e' := by
    refine .child [.null] [] (.inl rfl) (every _) (every _) ?_
    have hmoved : Rewrites (not either)
        (.ofFields [("AND", .list [not (leaf "wipe"), not (leaf "slot")])]) :=
      .deMorganAny heither (negated _) (every _) (.cons (negated _) (.cons (negated _) .nil))
    refine hmoved.trans (.members (.inl rfl) (every _) (every _) fun x => ?_)
    simp only [List.mem_cons, List.not_mem_nil, or_false]
    tauto
  obtain ⟨b, hb, hlaws⟩ := evaluate_of_rewrites hvalid hkeys settings
  cases hfalse.symm.trans hb
  exact ⟨hvalid, hkeys, hrewrites, hfalse, hlaws settings' e' hagree hrewrites⟩

end Condition

end Reflash
