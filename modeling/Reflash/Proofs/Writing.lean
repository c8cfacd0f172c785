import Mathlib.Algebra.Group.Nat.Defs
import Reflash.Value.Document
import Reflash.Value.Equality

set_option autoImplicit false

/-! # Which values can be written

A whole number can be written exactly if it has no more digits than the limit (`Value.hasNumeral_iff`),
and a value exactly if the numbers in it can. A document text asks for more: it exists exactly if the
keys of each mapping can be put in order as well (`Value.document_ok_iff`), and where there is none the
cause says which of the two is missing (`Value.document_error`). -/

namespace Reflash

theorem Text.fitsDigits_iff {d n : Nat} : fitsDigits d n = true ↔ n < 10 ^ d := by
  induction d generalizing n with
  | zero => simp [fitsDigits]
  | succ d ih =>
    have hpos : 0 < 10 ^ d := Nat.pow_pos (by decide)
    rw [fitsDigits, Nat.pow_succ]
    split
    · simp only [true_iff]
      omega
    · rw [ih]
      omega

namespace Value

/-! ## Numbers -/

theorem hasNumeral_iff {i : Int} : hasNumeral i = true ↔ i.natAbs < 10 ^ Text.mostDigits :=
  Text.fitsDigits_iff

theorem numeral_eq_error {i : Int} {e : Fault} :
    numeral i = .error e ↔ hasNumeral i = false ∧ e = .unwritable := by
  unfold numeral
  cases hasNumeral i with
  | true => simp
  | false => simp [eq_comm]

theorem numeral_ok_iff {i : Int} : (∃ s, numeral i = .ok s) ↔ hasNumeral i = true := by
  unfold numeral
  cases hasNumeral i with
  | true => simp
  | false => simp

/-- The least whole number with more digits than can be written. -/
def overlong : Value :=
  .int (10 ^ Text.mostDigits : Nat)

theorem writable_overlong : overlong.writable = false := by
  rw [overlong, writable, Bool.eq_false_iff, Ne, hasNumeral_iff, Int.natAbs_natCast]
  exact Nat.lt_irrefl _

/-! ## Values -/

theorem areWritable_iff {xs : List Value} : areWritable xs = true ↔ ∀ x ∈ xs, x.writable = true := by
  induction xs with
  | nil => simp [areWritable]
  | cons x xs ih => simp [areWritable, ih]

theorem entriesWritable_iff {es : Entries} :
    entriesWritable es = true ↔ ∀ e ∈ es, e.1.writable = true ∧ e.2.writable = true := by
  induction es with
  | nil => simp [entriesWritable]
  | cons e es ih => simp [entriesWritable, ih, and_assoc]

theorem writable_list {xs : List Value} :
    (Value.list xs).writable = true ↔ ∀ x ∈ xs, x.writable = true := by
  rw [writable, areWritable_iff]

theorem writable_tuple {xs : List Value} :
    (Value.tuple xs).writable = true ↔ ∀ x ∈ xs, x.writable = true := by
  rw [writable, areWritable_iff]

theorem writable_mapping {es : Entries} :
    (Value.mapping es).writable = true ↔ ∀ e ∈ es, e.1.writable = true ∧ e.2.writable = true := by
  rw [writable, entriesWritable_iff]

theorem mem_of_get? {key v : Value} {es : Entries} (h : es.get? key = some v) :
    ∃ k, (k, v) ∈ es := by
  induction es with
  | nil => cases h
  | cons e es ih =>
    obtain ⟨k, old⟩ := e
    rw [Entries.get?] at h
    split at h
    · cases h
      exact ⟨k, List.mem_cons_self⟩
    · obtain ⟨k', hk'⟩ := ih h
      exact ⟨k', List.mem_cons_of_mem _ hk'⟩

theorem writable_field {es : Entries} (h : (Value.mapping es).writable = true) {name : String}
    {v : Value} (hv : es.field? name = some v) : v.writable = true := by
  obtain ⟨k, hk⟩ := mem_of_get? hv
  exact (writable_mapping.mp h _ hk).2

theorem writable_fieldD {es : Entries} (h : (Value.mapping es).writable = true) (name : String) :
    (es.fieldD name).writable = true := by
  unfold Entries.fieldD
  cases hv : es.field? name with
  | none => rfl
  | some v => exact writable_field h hv


/-! ## Keys in order -/

/-- A value is another one, or stands inside of it. Sets are not looked into, since they are written as
one text. -/
inductive Inside (v : Value) : Value → Prop
  | self : Inside v v
  | element {x : Value} {xs : List Value} (h : x ∈ xs) (hx : Inside v x) : Inside v (.list xs)
  | component {x : Value} {xs : List Value} (h : x ∈ xs) (hx : Inside v x) : Inside v (.tuple xs)
  | entry {e : Value × Value} {es : Entries} (h : e ∈ es) (hx : Inside v e.2) :
    Inside v (.mapping es)

/-- Keys that can be put in order and spelled. -/
inductive Sortable : List Value → Prop
  | null : Sortable [.null]
  | texts {keys : List Value} (h : ∀ k ∈ keys, k.isStr = true) : Sortable keys
  | numbers {keys : List Value} (h : ∀ k ∈ keys, k.isNumber = true) : Sortable keys

/-- The keys of every mapping inside of a value can be put in order and spelled. -/
def Orderly (v : Value) : Prop :=
  ∀ es : Entries, Inside (.mapping es) v → Sortable es.keys

theorem keysSpellable_iff {keys : List Value} : keysSpellable keys = true ↔ Sortable keys := by
  constructor
  · intro h
    unfold keysSpellable at h
    split at h
    · exact .null
    · rw [Bool.or_eq_true, List.all_eq_true, List.all_eq_true] at h
      exact h.elim .texts .numbers
  · intro h
    unfold keysSpellable
    cases h with
    | null => rfl
    | texts h =>
      split
      · rfl
      · rw [List.all_eq_true.mpr h, Bool.true_or]
    | numbers h =>
      split
      · rfl
      · rw [List.all_eq_true.mpr h, Bool.or_true]

theorem orderly_list {xs : List Value} : Orderly (.list xs) ↔ ∀ x ∈ xs, Orderly x := by
  constructor
  · exact fun h x hx es hes => h es (.element hx hes)
  · intro h es hes
    cases hes with
    | element hx hes => exact h _ hx es hes

theorem orderly_tuple {xs : List Value} : Orderly (.tuple xs) ↔ ∀ x ∈ xs, Orderly x := by
  constructor
  · exact fun h x hx es hes => h es (.component hx hes)
  · intro h es hes
    cases hes with
    | component hx hes => exact h _ hx es hes

theorem orderly_mapping {es : Entries} :
    Orderly (.mapping es) ↔ Sortable es.keys ∧ ∀ e ∈ es, Orderly e.2 := by
  constructor
  · exact fun h => ⟨h es .self, fun e he es' hes' => h es' (.entry he hes')⟩
  · rintro ⟨hkeys, hes⟩ es' hes'
    cases hes' with
    | self => exact hkeys
    | entry he hes' => exact hes _ he es' hes'

/-! ## Document texts -/

theorem entryDocuments_eq (es : Entries) :
    entryDocuments es = es.map fun e => (e.1, document e.2) := by
  induction es with
  | nil => rfl
  | cons e es ih => rw [entryDocuments, ih, List.map_cons]

/-- Keys that can be put in order are spelled unless one is a number too long. -/
theorem Sortable.documentKey {keys : List Value} (h : Sortable keys) {k : Value} (hk : k ∈ keys) :
    (k.writable = true ∧ ∃ s, Value.documentKey k = .ok s) ∨
      (k.writable = false ∧ Value.documentKey k = .error .unwritable) := by
  have spelled {k : Value} (hk : k = .null ∨ k.isStr = true ∨ k.isNumber = true) :
      (k.writable = true ∧ ∃ s, Value.documentKey k = .ok s) ∨
        (k.writable = false ∧ Value.documentKey k = .error .unwritable) := by
    cases k with
    | int i =>
      cases hi : hasNumeral i with
      | true => exact .inl ⟨hi, numeral_ok_iff.mpr hi⟩
      | false => exact .inr ⟨hi, numeral_eq_error.mpr ⟨hi, rfl⟩⟩
    | null | bool | float | minusNaN | str => exact .inl ⟨rfl, _, rfl⟩
    | _ => simp [isStr, isNumber] at hk
  cases h with
  | null => exact spelled (.inl (List.mem_singleton.mp hk))
  | texts h => exact spelled (.inr (.inl (h k hk)))
  | numbers h => exact spelled (.inr (.inr (h k hk)))

theorem Sortable.writable_of_spelled {keys : List Value} (h : Sortable keys) {k : Value} {s : String}
    (hk : k ∈ keys) (hkey : Value.documentKey k = .ok s) : k.writable = true := by
  rcases h.documentKey hk with ⟨hwritable, -⟩ | ⟨-, he⟩
  · exact hwritable
  · cases hkey.symm.trans he

theorem Sortable.of_not_spelled {keys : List Value} (h : Sortable keys) {k : Value} {e : Fault}
    (hk : k ∈ keys) (hkey : Value.documentKey k = .error e) : e = .unwritable ∧ k.writable = false := by
  rcases h.documentKey hk with ⟨-, s, hs⟩ | ⟨hnot, he⟩
  · cases hkey.symm.trans hs
  · cases hkey.symm.trans he
    exact ⟨rfl, hnot⟩

/-- Members are written one by one, so they are all written or one of them is the cause. -/
theorem members_cases (ps : List (Value × Fallible String)) :
    (∃ ms, members ps = .ok ms ∧
      ∀ p ∈ ps, (∃ key, documentKey p.1 = .ok key) ∧ ∃ text, p.2 = .ok text) ∨
    ∃ p ∈ ps, ∃ e, members ps = .error e ∧ (documentKey p.1 = .error e ∨ p.2 = .error e) := by
  induction ps with
  | nil => exact .inl ⟨[], rfl, by simp⟩
  | cons p ps ih =>
    obtain ⟨k, part⟩ := p
    have hhead : (k, part) ∈ (k, part) :: ps := List.mem_cons_self
    rw [members]
    cases hkey : documentKey k with
    | error e => exact .inr ⟨_, hhead, e, rfl, .inl hkey⟩
    | ok key =>
      cases part with
      | error e => exact .inr ⟨_, hhead, e, rfl, .inr rfl⟩
      | ok text =>
        rcases ih with ⟨ms, hms, hall⟩ | ⟨p, hp, e, he, hcause⟩
        · rw [hms]
          exact .inl ⟨_, rfl, List.forall_mem_cons.mpr ⟨⟨⟨key, hkey⟩, text, rfl⟩, hall⟩⟩
        · rw [he]
          exact .inr ⟨p, List.mem_cons_of_mem _ hp, e, rfl, hcause⟩

/-- What is known of a value once its document text was asked for: there is one, since its keys are
orderly and its numbers can be written, or the cause says which of these fails. -/
def Documented (v : Value) : Prop :=
  (∃ text, document v = .ok text ∧ Orderly v ∧ v.writable = true) ∨
  (document v = .error .mistyped ∧ ¬Orderly v) ∨
  (document v = .error .unwritable ∧ v.writable = false)

theorem Documented.of_ok {v : Value} {text : String} (h : Documented v) (htext : document v = .ok text) :
    Orderly v ∧ v.writable = true := by
  rcases h with ⟨-, -, hboth⟩ | ⟨he, -⟩ | ⟨he, -⟩
  · exact hboth
  · cases htext.symm.trans he
  · cases htext.symm.trans he

theorem Documented.of_error {v : Value} {e : Fault} (h : Documented v) (he : document v = .error e) :
    e = .mistyped ∧ ¬Orderly v ∨ e = .unwritable ∧ v.writable = false := by
  rcases h with ⟨text, htext, -⟩ | ⟨he', hnot⟩ | ⟨he', hnot⟩
  · cases he.symm.trans htext
  · cases he.symm.trans he'
    exact .inl ⟨rfl, hnot⟩
  · cases he.symm.trans he'
    exact .inr ⟨rfl, hnot⟩

theorem documents_cases {xs : List Value} (h : ∀ x ∈ xs, Documented x) :
    (∃ texts, documents xs = .ok texts ∧ (∀ x ∈ xs, Orderly x) ∧ ∀ x ∈ xs, x.writable = true) ∨
    (documents xs = .error .mistyped ∧ ¬∀ x ∈ xs, Orderly x) ∨
    (documents xs = .error .unwritable ∧ ¬∀ x ∈ xs, x.writable = true) := by
  induction xs with
  | nil => exact .inl ⟨[], rfl, by simp, by simp⟩
  | cons x xs ih =>
    obtain ⟨hx, hxs⟩ := List.forall_mem_cons.mp h
    rw [List.forall_mem_cons, List.forall_mem_cons, documents]
    rcases hx with ⟨text, htext, horderly, hwritable⟩ | ⟨he, hnot⟩ | ⟨he, hnot⟩
    · rw [htext]
      rcases ih hxs with ⟨texts, htexts, hall, hall'⟩ | ⟨he, hnot⟩ | ⟨he, hnot⟩
      · rw [htexts]
        exact .inl ⟨_, rfl, ⟨horderly, hall⟩, hwritable, hall'⟩
      · rw [he]
        exact .inr (.inl ⟨rfl, fun h => hnot h.2⟩)
      · rw [he]
        exact .inr (.inr ⟨rfl, fun h => hnot h.2⟩)
    · rw [he]
      exact .inr (.inl ⟨rfl, fun h => hnot h.1⟩)
    · rw [he]
      exact .inr (.inr ⟨rfl, fun h => by simp [hnot] at h⟩)

/-- A value is written by its elements, in order. -/
theorem documented_of_elements {v : Value} {xs : List Value} {joined : List String → String}
    (hdocument : document v = (documents xs).map joined)
    (horderly : Orderly v ↔ ∀ x ∈ xs, Orderly x)
    (hwritable : v.writable = true ↔ ∀ x ∈ xs, x.writable = true) (h : ∀ x ∈ xs, Documented x) :
    Documented v := by
  unfold Documented
  rw [hdocument, horderly, Bool.eq_false_iff, Ne, hwritable]
  rcases documents_cases h with ⟨texts, htexts, hall⟩ | ⟨he, hnot⟩ | ⟨he, hnot⟩
  · exact .inl ⟨_, by rw [htexts]; rfl, hall⟩
  · exact .inr (.inl ⟨by rw [he]; rfl, hnot⟩)
  · exact .inr (.inr ⟨by rw [he]; rfl, hnot⟩)

/-- The keys are looked at before anything else is; then the members are written in order. -/
theorem documented_mapping {es : Entries} (h : ∀ e ∈ es, Documented e.2) :
    Documented (.mapping es) := by
  have hkeys : (es.map fun e => (e.1, document e.2)).map Prod.fst = Entries.keys es := by
    rw [List.map_map]
    rfl
  unfold Documented
  rw [orderly_mapping, Bool.eq_false_iff, Ne, writable_mapping, document, entryDocuments_eq,
    hkeys]
  by_cases hsort : Sortable (Entries.keys es)
  · rw [if_pos (keysSpellable_iff.mpr hsort)]
    have hmem {p : Value × Fallible String} :
        p ∈ sortedByKey (es.map fun e => (e.1, document e.2)) ↔
          ∃ e ∈ es, (e.1, document e.2) = p := by
      rw [sortedByKey, List.mem_mergeSort, List.mem_map]
    rcases members_cases (sortedByKey (es.map fun e => (e.1, document e.2))) with
      ⟨ms, hms, hall⟩ | ⟨p, hp, e, he, hcause⟩
    · have written (e : Value × Value) (he : e ∈ es) :
          e.1.writable = true ∧ Orderly e.2 ∧ e.2.writable = true := by
        obtain ⟨⟨key, hkey⟩, text, htext⟩ := hall _ (hmem.mpr ⟨e, he, rfl⟩)
        exact ⟨hsort.writable_of_spelled (List.mem_map_of_mem he) hkey, (h e he).of_ok htext⟩
      exact .inl ⟨_, by rw [hms]; rfl, ⟨hsort, fun e he => (written e he).2.1⟩,
        fun e he => ⟨(written e he).1, (written e he).2.2⟩⟩
    · obtain ⟨entry, hentry, rfl⟩ := hmem.mp hp
      rw [he]
      rcases hcause with hkey | hvalue
      · obtain ⟨rfl, hnot⟩ := hsort.of_not_spelled (List.mem_map_of_mem hentry) hkey
        exact .inr (.inr ⟨rfl, fun hall => by simp [(hall entry hentry).1] at hnot⟩)
      · rcases (h entry hentry).of_error hvalue with ⟨rfl, hnot⟩ | ⟨rfl, hnot⟩
        · exact .inr (.inl ⟨rfl, fun hall => hnot (hall.2 entry hentry)⟩)
        · exact .inr (.inr ⟨rfl, fun hall => by simp [(hall entry hentry).2] at hnot⟩)
  · rw [if_neg (mt keysSpellable_iff.mp hsort)]
    exact .inr (.inl ⟨rfl, fun hall => hsort hall.1⟩)

mutual

theorem documented : (v : Value) → Documented v
  | .list xs => documented_of_elements rfl orderly_list writable_list (allDocumented xs)
  | .tuple xs => documented_of_elements rfl orderly_tuple writable_tuple (allDocumented xs)
  | .mapping es => documented_mapping (entriesDocumented es)
  | .int i => by
    have horderly : Orderly (.int i) := by rintro _ ⟨⟩
    cases hi : hasNumeral i with
    | true =>
      obtain ⟨text, htext⟩ := numeral_ok_iff.mpr hi
      exact .inl ⟨text, htext, horderly, hi⟩
    | false => exact .inr (.inr ⟨numeral_eq_error.mpr ⟨hi, rfl⟩, hi⟩)
  | .set xs => by
    have horderly : Orderly (.set xs) := by rintro _ ⟨⟩
    have hdocument : document (.set xs) = (shown (.set xs)).map documentString := rfl
    unfold Documented
    rw [hdocument]
    cases hw : (Value.set xs).writable with
    | true =>
      rw [shown_of_writable hw]
      exact .inl ⟨_, rfl, horderly, rfl⟩
    | false =>
      rw [shown_of_unwritable hw]
      exact .inr (.inr ⟨rfl, rfl⟩)
  | .null | .bool _ | .float _ | .minusNaN | .str _ | .bytes _ | .date _ | .dateTime _ => by
    refine .inl ⟨_, rfl, ?_, rfl⟩
    rintro _ ⟨⟩

theorem allDocumented : (xs : List Value) → ∀ x ∈ xs, Documented x
  | [] => by simp
  | x :: xs => List.forall_mem_cons.mpr ⟨documented x, allDocumented xs⟩

theorem entriesDocumented : (es : Entries) → ∀ e ∈ es, Documented e.2
  | [] => by simp
  | (_, v) :: es => List.forall_mem_cons.mpr ⟨documented v, entriesDocumented es⟩

end

/-- A value has a document text exactly if its keys have an order, at whatever depth, and its numbers
can be written. -/
theorem document_ok_iff {v : Value} :
    (∃ text, document v = .ok text) ↔ Orderly v ∧ v.writable = true := by
  rcases documented v with ⟨text, htext, h⟩ | ⟨he, hnot⟩ | ⟨he, hnot⟩
  · exact iff_of_true ⟨text, htext⟩ h
  · exact iff_of_false (by simp [he]) fun h => hnot h.1
  · exact iff_of_false (by simp [he]) fun h => by simp [h.2] at hnot

/-- What keeps a value from being written. -/
theorem document_error {v : Value} {e : Fault} (h : document v = .error e) :
    e = .mistyped ∧ ¬Orderly v ∨ e = .unwritable ∧ v.writable = false :=
  (documented v).of_error h

end Value

end Reflash
