import Reflash.Condition
import Reflash.Proofs.Keys

set_option autoImplicit false

/-! # Well-formed conditions

A document value is a condition (`Condition.Expression`) if it is null, a leaf or a node with one
operator, and so are the values under the operator. This is what validation accepts, whatever the
place is that it would report (`Condition.validate_eq_ok_iff`). What is read off a leaf or a node, and
what it evaluates to, depends on the operands only, and not on what else the mapping holds. -/

namespace Reflash

namespace Entries

theorem has_eq_false_iff {name : String} {es : Entries} :
    Entries.has name es = false ↔ Entries.field? name es = none := by
  rw [has, Option.isSome_eq_false_iff, Option.isNone_iff_eq_none]

theorem field?_ofFields (name : String) (fields : List (String × Value)) :
    field? name (fields.map fun (name, v) => (.str name, v)) = fields.lookup name := by
  induction fields with
  | nil => rfl
  | cons field fields ih =>
    obtain ⟨k, v⟩ := field
    rw [List.map_cons, field?_cons, ih, Value.same, List.lookup_cons]
    cases name == k <;> rfl

end Entries

namespace Condition

/-! ## Nodes and leaves -/

/-- A mapping with one operator: what stands under it is the operand. -/
def Node (op : String) (operand e : Value) : Prop :=
  ∃ es, e = .mapping es ∧ Entries.field? op es = some operand ∧
    ∀ op' ∈ operators, op' ≠ op → Entries.has op' es = false

/-- A mapping without operators that names a variable, and the value to compare it with, which is null
if there is none. -/
def Leaf (var value e : Value) : Prop :=
  ∃ es, e = .mapping es ∧ (∀ op ∈ operators, Entries.has op es = false) ∧
    Entries.field? "var" es = some var ∧ Entries.fieldD "value" es = value

/-- A value is a condition: null, or exactly one of leaf, `AND`, `OR` and `NOT` over conditions. Only
null itself cannot be negated. -/
inductive Expression : Value → Prop
  | null : Expression .null
  | leaf {var value e : Value} (h : Leaf var value e) : Expression e
  | all {xs : List Value} {e : Value} (h : Node "AND" (.list xs) e)
    (hxs : ∀ x ∈ xs, Expression x) : Expression e
  | any {xs : List Value} {e : Value} (h : Node "OR" (.list xs) e)
    (hxs : ∀ x ∈ xs, Expression x) : Expression e
  | negation {x e : Value} (h : Node "NOT" x e) (hx : Expression x) (hnull : x ≠ .null) :
    Expression e

theorem node_ofFields {op : String} {x : Value} {fields : List (String × Value)}
    (hop : fields.lookup op = some x)
    (hothers : ∀ op' ∈ operators, op' ≠ op → fields.lookup op' = none) :
    Node op x (.ofFields fields) :=
  ⟨_, rfl, (Entries.field?_ofFields op fields).trans hop, fun op' hop' hne =>
    Entries.has_eq_false_iff.mpr ((Entries.field?_ofFields op' fields).trans (hothers op' hop' hne))⟩

/-! ## Validation -/

theorem validateChildren_of_ne {path op : String} {k v : Value} {es : List (Value × Value)}
    (hk : ¬Value.same (.str op) k) :
    validateChildren path op ((k, v) :: es) = validateChildren path op es := by
  cases v <;> rw [validateChildren, if_neg hk] <;> exact fun _ h => Value.noConfusion h

theorem validateOperand_of_ne {path : String} {k v : Value} {es : List (Value × Value)}
    (hk : ¬Value.same (.str "NOT") k) :
    validateOperand path ((k, v) :: es) = validateOperand path es := by
  cases v <;> rw [validateOperand, if_neg hk] <;> exact fun h => Value.noConfusion h

mutual

/-- What validation accepts is a condition. -/
theorem expression_of_validate : (path : String) → (v : Value) → validate path v = .ok () →
    Expression v
  | _, .null, _ => .null
  | path, .mapping es, h => by
    rw [validate] at h
    -- At most one of the operators is there.
    cases hand : Entries.has "AND" es <;> cases hor : Entries.has "OR" es <;>
      cases hnot : Entries.has "NOT" es <;>
      simp only [operators, List.filter, hand, hor, hnot] at h
    case true.false.false =>
      obtain ⟨v, hv⟩ := Option.isSome_iff_exists.mp hand
      obtain ⟨xs, rfl, hxs⟩ := expression_of_validateChildren path "AND" es h v hv
      exact .all ⟨es, rfl, hv, by simp [operators, hor, hnot]⟩ hxs
    case false.true.false =>
      obtain ⟨v, hv⟩ := Option.isSome_iff_exists.mp hor
      obtain ⟨xs, rfl, hxs⟩ := expression_of_validateChildren path "OR" es h v hv
      exact .any ⟨es, rfl, hv, by simp [operators, hand, hnot]⟩ hxs
    case false.false.true =>
      obtain ⟨v, hv⟩ := Option.isSome_iff_exists.mp hnot
      obtain ⟨hnull, hx⟩ := expression_of_validateOperand path es h v hv
      exact .negation ⟨es, rfl, hv, by simp [operators, hand, hor]⟩ hx hnull
    case false.false.false =>
      split at h
      · next hvar =>
        obtain ⟨var, hvar⟩ := Option.isSome_iff_exists.mp hvar
        exact .leaf ⟨es, rfl, by simp [operators, hand, hor, hnot], hvar, rfl⟩
      · cases h
    all_goals cases h

theorem expression_of_validateChildren : (path op : String) → (es : List (Value × Value)) →
    validateChildren path op es = .ok () → ∀ v, Entries.field? op es = some v →
    ∃ xs, v = .list xs ∧ ∀ x ∈ xs, Expression x
  | _, _, [], _, _, hv => by cases hv
  | path, op, (k, v) :: es, h, v', hv => by
    rw [Entries.field?_cons] at hv
    by_cases hk : Value.same (.str op) k
    · rw [if_pos hk] at hv
      cases hv
      cases v with
      | list xs =>
        rw [validateChildren, if_pos hk] at h
        exact ⟨xs, rfl, expression_of_validateEach path op 0 xs h⟩
      | _ =>
        rw [validateChildren, if_pos hk] at h
        · cases h
        · exact fun xs hxs => Value.noConfusion hxs
    · rw [if_neg hk] at hv
      rw [validateChildren_of_ne hk] at h
      exact expression_of_validateChildren path op es h v' hv

theorem expression_of_validateEach : (path op : String) → (i : Nat) → (vs : List Value) →
    validateEach path op i vs = .ok () → ∀ x ∈ vs, Expression x
  | _, _, _, [], _ => by simp
  | path, op, i, v :: vs, h => by
    rw [validateEach] at h
    split at h
    · cases h
    · next hv =>
      exact List.forall_mem_cons.mpr ⟨expression_of_validate _ v hv,
        expression_of_validateEach path op (i + 1) vs h⟩

theorem expression_of_validateOperand : (path : String) → (es : List (Value × Value)) →
    validateOperand path es = .ok () → ∀ v, Entries.field? "NOT" es = some v →
    v ≠ .null ∧ Expression v
  | _, [], _, _, hv => by cases hv
  | path, (k, v) :: es, h, v', hv => by
    rw [Entries.field?_cons] at hv
    by_cases hk : Value.same (.str "NOT") k
    · rw [if_pos hk] at hv
      cases hv
      cases v with
      | null =>
        rw [validateOperand, if_pos hk] at h
        cases h
      | _ =>
        rw [validateOperand, if_pos hk] at h
        · exact ⟨Value.noConfusion, expression_of_validate _ _ h⟩
        · exact fun hv => Value.noConfusion hv
    · rw [if_neg hk] at hv
      rw [validateOperand_of_ne hk] at h
      exact expression_of_validateOperand path es h v' hv

end

theorem validateChildren_of_field? {path op : String} {xs : List Value} {es : Entries}
    (h : Entries.field? op es = some (.list xs)) :
    validateChildren path op es = validateEach path op 0 xs := by
  induction es with
  | nil => cases h
  | cons e es ih =>
    obtain ⟨k, v⟩ := e
    rw [Entries.field?_cons] at h
    by_cases hk : Value.same (.str op) k
    · rw [if_pos hk] at h
      cases h
      rw [validateChildren, if_pos hk]
    · rw [if_neg hk] at h
      rw [validateChildren_of_ne hk, ih h]

theorem validateOperand_of_field? {path : String} {x : Value} {es : Entries}
    (h : Entries.field? "NOT" es = some x) (hnull : x ≠ .null) :
    validateOperand path es = validate (path ++ ".NOT") x := by
  induction es with
  | nil => cases h
  | cons e es ih =>
    obtain ⟨k, v⟩ := e
    rw [Entries.field?_cons] at h
    by_cases hk : Value.same (.str "NOT") k
    · rw [if_pos hk] at h
      cases h
      rw [validateOperand, if_pos hk]
      exact hnull
    · rw [if_neg hk] at h
      rw [validateOperand_of_ne hk, ih h]

theorem validateEach_of_forall {path op : String} {vs : List Value}
    (h : ∀ x ∈ vs, ∀ path, validate path x = .ok ()) (i : Nat) :
    validateEach path op i vs = .ok () := by
  induction vs generalizing i with
  | nil => rfl
  | cons v vs ih =>
    rw [validateEach, h v (by simp)]
    exact ih (fun x hx => h x (by simp [hx])) (i + 1)

/-- A node has its own operator and no other. -/
theorem Node.operators_filter {op : String} {operand : Value} {es : Entries}
    (h : Node op operand (.mapping es)) (hop : op ∈ operators) :
    (operators.filter fun op => Entries.has op es) = [op] := by
  obtain ⟨_, hes, hfield, hothers⟩ := h
  cases hes
  have hhas : Entries.has op es = true := by rw [Entries.has, hfield]; rfl
  have hother (op' : String) (hop' : op' ∈ operators) :
      Entries.has op' es = decide (op' = op) := by
    by_cases heq : op' = op
    · rw [heq, hhas, decide_eq_true rfl]
    · rw [hothers op' hop' heq, decide_eq_false heq]
  rw [List.filter_congr hother]
  simp only [operators, List.mem_cons, List.not_mem_nil, or_false] at hop
  rcases hop with rfl | rfl | rfl <;> rfl

theorem validate_of_expression {v : Value} (h : Expression v) (path : String) :
    validate path v = .ok () := by
  induction h generalizing path with
  | null => rfl
  | leaf h =>
    obtain ⟨es, rfl, hnone, hvar, -⟩ := h
    have hops : (operators.filter fun op => Entries.has op es) = [] :=
      List.filter_eq_nil_iff.mpr fun op hop => by simp [hnone op hop]
    rw [validate, hops]
    simp [Entries.has, hvar]
  | all h _ ih =>
    obtain ⟨es, rfl, hfield, -⟩ := id h
    rw [validate, h.operators_filter (by decide)]
    exact (validateChildren_of_field? hfield).trans (validateEach_of_forall ih 0)
  | any h _ ih =>
    obtain ⟨es, rfl, hfield, -⟩ := id h
    rw [validate, h.operators_filter (by decide)]
    exact (validateChildren_of_field? hfield).trans (validateEach_of_forall ih 0)
  | negation h _ hnull ih =>
    obtain ⟨es, rfl, hfield, -⟩ := id h
    rw [validate, h.operators_filter (by decide)]
    exact (validateOperand_of_field? hfield hnull).trans (ih _)

/-- Validation accepts the well-formed conditions, and only these. -/
theorem validate_eq_ok_iff {path : String} {v : Value} :
    validate path v = .ok () ↔ Expression v :=
  ⟨expression_of_validate path v, fun h => validate_of_expression h path⟩

/-! ## Reading -/

theorem readList_eq_map (vs : List Value) : readList vs = vs.map read := by
  induction vs with
  | nil => rfl
  | cons v vs ih => rw [readList, ih, List.map_cons]

theorem childrenAt_eq_map (op : String) (es : Entries) :
    childrenAt op es = (Entries.field? op es).map children := by
  induction es with
  | nil => rfl
  | cons e es ih =>
    obtain ⟨k, v⟩ := e
    rw [childrenAt, Entries.field?_cons, ih]
    split <;> rfl

theorem operandAt_eq_map (es : Entries) : operandAt es = (Entries.field? "NOT" es).map read := by
  induction es with
  | nil => rfl
  | cons e es ih =>
    obtain ⟨k, v⟩ := e
    rw [operandAt, Entries.field?_cons, ih]
    split <;> rfl

theorem isEmpty_of_field? {name : String} {v : Value} {es : Entries}
    (h : Entries.field? name es = some v) : es.isEmpty = false := by
  cases es with
  | nil => cases h
  | cons => rfl

/-- A node lacks the other operators. -/
theorem Node.field?_eq_none {op : String} {operand : Value} {es : Entries}
    (h : Node op operand (.mapping es)) (op' : String) (hop' : op' ∈ operators) (hne : op' ≠ op) :
    Entries.field? op' es = none := by
  obtain ⟨_, hes, -, hothers⟩ := h
  cases hes
  exact Entries.has_eq_false_iff.mp (hothers op' hop' hne)

theorem Node.read_all {xs : List Value} {e : Value} (h : Node "AND" (.list xs) e) :
    read e = .all (xs.map read) := by
  obtain ⟨es, rfl, hfield, -⟩ := h
  rw [read, isEmpty_of_field? hfield, childrenAt_eq_map, hfield, ← readList_eq_map]
  rfl

theorem Node.read_any {xs : List Value} {e : Value} (h : Node "OR" (.list xs) e) :
    read e = .any (xs.map read) := by
  obtain ⟨es, rfl, hfield, -⟩ := id h
  rw [read, isEmpty_of_field? hfield, childrenAt_eq_map, childrenAt_eq_map, hfield,
    h.field?_eq_none "AND" (by decide) (by decide), ← readList_eq_map]
  rfl

theorem Node.read_negation {x e : Value} (h : Node "NOT" x e) : read e = .negation (read x) := by
  obtain ⟨es, rfl, hfield, -⟩ := id h
  rw [read, isEmpty_of_field? hfield, childrenAt_eq_map, childrenAt_eq_map, operandAt_eq_map, hfield,
    h.field?_eq_none "AND" (by decide) (by decide),
    h.field?_eq_none "OR" (by decide) (by decide)]
  rfl

theorem Leaf.read_eq {var value e : Value} (h : Leaf var value e) : read e = .holds var value := by
  obtain ⟨es, rfl, hnone, hvar, rfl⟩ := h
  have absent (op : String) (hop : op ∈ operators) : Entries.field? op es = none :=
    Entries.has_eq_false_iff.mp (hnone op hop)
  rw [read, isEmpty_of_field? hvar, childrenAt_eq_map, childrenAt_eq_map, operandAt_eq_map,
    absent "AND" (by decide), absent "OR" (by decide), absent "NOT" (by decide), Entries.fieldD, hvar]
  rfl

end Condition

end Reflash
