import Reflash.Proofs.Numbers
import Reflash.Value.Equality

set_option autoImplicit false

/-! # Keys

That keys are the same is symmetric (`Value.same_symm`) and transitive (`Value.same_trans`), also
among numbers of different types: a key that is no tuple is compared by a scalar (`Value.Reads`). So
what is stored under a key is found under every key that is the same (`Entries.get?_put`), and of
entries that are stored one after the other the last one counts (`Entries.get?_putAll`). -/

namespace Reflash

/-! ## Scalars -/

/-- What a scalar is compared by. -/
inductive Scalar where
  | null
  | whole (i : Int)
  | float (x : Float)
  | str (s : String)
  | bytes (bs : List UInt8)
  | date (d : Date)
  | clock (micros : Int)
  | instant (micros : Int)

namespace Value

/-- A value can be compared by a scalar: numbers by the number they are, times by their instant, or by
what the clock shows if it is not known where. -/
inductive Reads : Value → Scalar → Prop
  | null : Reads .null .null
  | bool {b : Bool} {i : Int} (h : (if b then 1 else 0) = i) : Reads (.bool b) (.whole i)
  | int (i : Int) : Reads (.int i) (.whole i)
  | whole {x : Float} {i : Int} (h : Number.whole? x = some i) : Reads (.float x) (.whole i)
  | float {x y : Float} (hx : Number.whole? x = none) (h : (x == y) = true) :
    Reads (.float x) (.float y)
  | str (s : String) : Reads (.str s) (.str s)
  | bytes (bs : List UInt8) : Reads (.bytes bs) (.bytes bs)
  | date (d : Date) : Reads (.date d) (.date d)
  | clock {t : DateTime} {micros : Int} (hnone : t.instant? = none) (h : t.localMicros = micros) :
    Reads (.dateTime t) (.clock micros)
  | instant {t : DateTime} {micros : Int} (h : t.instant? = some micros) :
    Reads (.dateTime t) (.instant micros)

/-- Values that can be compared by one scalar can be compared by the same ones. -/
theorem Reads.trans {a b : Value} {s s' : Scalar} (ha : a.Reads s) (hb : b.Reads s)
    (hb' : b.Reads s') : a.Reads s' := by
  cases hb with
  | float hx h =>
    cases hb' with
    | whole hx' => cases hx.symm.trans hx'
    | float _ h' =>
      cases ha with
      | float hx' h'' =>
        exact .float hx' (Number.beq_trans h'' (Number.beq_trans (Number.beq_symm h) h'))
  | whole h =>
    cases hb' with
    | whole h' =>
      cases h.symm.trans h'
      exact ha
    | float h' => cases h'.symm.trans h
  | bool h =>
    cases hb' with
    | bool h' => exact h.symm.trans h' ▸ ha
  | clock hnone h =>
    cases hb' with
    | clock _ h' => exact h.symm.trans h' ▸ ha
    | instant h' => cases hnone.symm.trans h'
  | instant h =>
    cases hb' with
    | clock hnone => cases hnone.symm.trans h
    | instant h' =>
      cases h.symm.trans h'
      exact ha
  | _ =>
    cases hb'
    exact ha

theorem same_eq_sameNumber? {a b : Value} {c : Bool} (h : a.sameNumber? b = some c) :
    a.same b = c := by
  have hnumber : a.same b = (a.sameNumber? b).getD false := by
    rw [same.eq_def]
    cases a <;> cases b <;> first | rfl | cases h
  rw [hnumber, h, Option.getD_some]

theorem reads_bool_iff {b : Bool} {s : Scalar} :
    (bool b).Reads s ↔ s = .whole (if b then 1 else 0) := by
  constructor
  · rintro ⟨⟩
    next h => exact congrArg Scalar.whole h.symm
  · rintro rfl
    exact .bool rfl

theorem reads_int_iff {i : Int} {s : Scalar} : (int i).Reads s ↔ s = .whole i := by
  constructor
  · rintro ⟨⟩
    rfl
  · rintro rfl
    exact .int i

theorem reads_whole_iff {x : Float} {i : Int} :
    (float x).Reads (.whole i) ↔ Number.isWhole x i = true := by
  rw [Number.isWhole_iff]
  constructor
  · rintro ⟨⟩
    assumption
  · exact .whole

theorem reads_float_iff {x y : Float} :
    (∃ s, (float x).Reads s ∧ (float y).Reads s) ↔ (x == y) = true := by
  constructor
  · rintro ⟨s, hx, hy⟩
    cases hx with
    | whole hx =>
      cases hy with
      | whole hy => exact Number.beq_of_whole? hx hy
    | float _ hx =>
      cases hy with
      | float _ hy => exact Number.beq_trans hx (Number.beq_symm hy)
  · intro h
    have hwhole := Number.whole?_congr h
    cases hx : Number.whole? x with
    | some i => exact ⟨.whole i, .whole hx, .whole (hwhole ▸ hx)⟩
    | none =>
      have hself := Number.beq_trans (Number.beq_symm h) h
      exact ⟨.float y, .float hx h, .float (hwhole ▸ hx) hself⟩

/-- Numbers of any types are equal exactly if they can be compared by the same. -/
theorem sameNumber?_iff {a b : Value} {c : Bool} (h : a.sameNumber? b = some c) :
    c = true ↔ ∃ s, a.Reads s ∧ b.Reads s := by
  cases a <;> cases b <;> cases h
  case bool.bool b c =>
    cases b <;> cases c <;> simp [reads_bool_iff]
  case float.float => exact reads_float_iff.symm
  all_goals simp [reads_bool_iff, reads_int_iff, reads_whole_iff]

theorem dateTime_same_iff {t u : DateTime} : t.same u = true ↔
    ∃ s, (dateTime t).Reads s ∧ (dateTime u).Reads s := by
  unfold DateTime.same
  constructor
  · intro h
    split at h
    · next ht hu => exact ⟨_, .instant ht, .instant (beq_iff_eq.mp h ▸ hu)⟩
    · next ht hu => exact ⟨_, .clock ht rfl, .clock hu (beq_iff_eq.mp h).symm⟩
    · cases h
  · rintro ⟨s, ht, hu⟩
    cases ht with
    | clock htnone ht =>
      cases hu with
      | clock hunone hu => simp [htnone, hunone, ht, hu]
    | instant ht =>
      cases hu with
      | instant hu => simp [ht, hu]

/-- Values that can be compared by one scalar are the same. -/
theorem Reads.same {a b : Value} {s : Scalar} (ha : a.Reads s) (hb : b.Reads s) :
    a.same b = true := by
  cases hnumber : a.sameNumber? b with
  | some c =>
    rw [same_eq_sameNumber? hnumber]
    exact (sameNumber?_iff hnumber).mpr ⟨s, ha, hb⟩
  | none =>
    have htime {t u : DateTime} (ht : (dateTime t).Reads s) (hu : (dateTime u).Reads s) :
        t.same u = true := dateTime_same_iff.mpr ⟨s, ht, hu⟩
    rw [same.eq_def]
    cases ha <;> cases hb <;> simp [sameNumber?] at hnumber ⊢
    case clock.clock htnone ht _ hunone hu => exact htime (.clock htnone ht) (.clock hunone hu)
    case instant.instant ht _ hu => exact htime (.instant ht) (.instant hu)

/-- Keys that are the same can be compared by one scalar, unless they are tuples. -/
theorem same_cases {a b : Value} (ha : a.isKey) (h : a.same b = true) :
    (∃ s, a.Reads s ∧ b.Reads s) ∨
      ∃ xs ys, a = .tuple xs ∧ b = .tuple ys ∧ sameList xs ys = true := by
  cases hnumber : a.sameNumber? b with
  | some c =>
    rw [same_eq_sameNumber? hnumber] at h
    exact .inl ((sameNumber?_iff hnumber).mp h)
  | none =>
    rw [same.eq_def] at h
    cases a <;> cases b <;> simp [sameNumber?, isKey] at h hnumber ha
    case null.null => exact .inl ⟨_, .null, .null⟩
    case str.str => exact .inl ⟨_, .str _, h ▸ .str _⟩
    case bytes.bytes => exact .inl ⟨_, .bytes _, h ▸ .bytes _⟩
    case date.date => exact .inl ⟨_, .date _, h ▸ .date _⟩
    case dateTime.dateTime => exact .inl (dateTime_same_iff.mp h)
    case tuple.tuple => exact .inr ⟨_, _, rfl, rfl, h⟩

theorem same_tuple (xs ys : List Value) : (tuple xs).same (tuple ys) = sameList xs ys := by
  rw [same]

theorem tuple_same {xs : List Value} {b : Value} (h : (tuple xs).same b = true) :
    ∃ ys, b = .tuple ys ∧ sameList xs ys = true := by
  rw [same.eq_def] at h
  cases b <;> simp [sameNumber?] at h
  exact ⟨_, rfl, h⟩

theorem Reads.isKey {a : Value} {s : Scalar} (h : a.Reads s) : a.isKey = true := by
  cases h <;> rfl

theorem sameList_cons (x : Value) (xs ys : List Value) :
    sameList (x :: xs) ys = true ↔
      ∃ y ys', ys = y :: ys' ∧ x.same y = true ∧ sameList xs ys' = true := by
  rw [sameList.eq_def]
  cases ys with
  | nil => simp
  | cons y ys =>
    rw [Bool.and_eq_true]
    constructor
    · exact fun h => ⟨y, ys, rfl, h⟩
    · rintro ⟨_, _, heq, h⟩
      cases heq
      exact h

theorem sameList_nil {ys : List Value} : sameList [] ys = true ↔ ys = [] := by
  rw [sameList.eq_def]
  cases ys <;> simp

mutual

theorem same_symm {a b : Value} (ha : a.isKey) (h : a.same b = true) : b.same a = true := by
  rcases same_cases ha h with ⟨s, hs, hs'⟩ | ⟨xs, ys, rfl, rfl, hlist⟩
  · exact hs'.same hs
  · rw [same_tuple]
    exact sameList_symm ha hlist
termination_by sizeOf a

theorem sameList_symm {xs ys : List Value} (hxs : areKeys xs) (h : sameList xs ys = true) :
    sameList ys xs = true := by
  cases xs with
  | nil =>
    rw [sameList_nil.mp h]
    exact sameList_nil.mpr rfl
  | cons x xs =>
    obtain ⟨y, ys', rfl, hxy, hxys⟩ := (sameList_cons x xs ys).mp h
    rw [areKeys, Bool.and_eq_true] at hxs
    exact (sameList_cons y ys' _).mpr ⟨x, xs, rfl, same_symm hxs.1 hxy, sameList_symm hxs.2 hxys⟩
termination_by sizeOf xs

theorem same_trans {a b c : Value} (ha : a.isKey) (h : a.same b = true) (h' : b.same c = true) :
    a.same c = true := by
  rcases same_cases ha h with ⟨s, hs, hs'⟩ | ⟨xs, ys, rfl, rfl, hlist⟩
  · rcases same_cases hs'.isKey h' with ⟨t, ht, ht'⟩ | ⟨xs, ys, rfl, -, -⟩
    · exact (hs.trans hs' ht).same ht'
    · cases hs'
  · rcases tuple_same h' with ⟨zs, rfl, hlist'⟩
    rw [same_tuple]
    exact sameList_trans ha hlist hlist'
termination_by sizeOf a

theorem sameList_trans {xs ys zs : List Value} (hxs : areKeys xs) (h : sameList xs ys = true)
    (h' : sameList ys zs = true) : sameList xs zs = true := by
  cases xs with
  | nil => rwa [sameList_nil.mp h] at h'
  | cons x xs =>
    obtain ⟨y, ys', rfl, hxy, hxys⟩ := (sameList_cons x xs ys).mp h
    obtain ⟨z, zs', rfl, hyz, hyzs⟩ := (sameList_cons y ys' zs).mp h'
    rw [areKeys, Bool.and_eq_true] at hxs
    exact (sameList_cons x xs _).mpr
      ⟨z, zs', rfl, same_trans hxs.1 hxy hyz, sameList_trans hxs.2 hxys hyzs⟩
termination_by sizeOf xs

end

mutual

/-- What is the same as a key is a key. -/
theorem isKey_of_same {a b : Value} (hb : b.isKey) (h : a.same b = true) : a.isKey = true := by
  cases a with
  | list xs | set xs | mapping es =>
    rw [same.eq_def] at h
    cases b <;> simp [sameNumber?, isKey] at h hb
  | tuple xs =>
    obtain ⟨ys, rfl, hlist⟩ := tuple_same h
    exact areKeys_of_sameList hb hlist
  | _ => rfl
termination_by sizeOf a

theorem areKeys_of_sameList {xs ys : List Value} (hys : areKeys ys) (h : sameList xs ys = true) :
    areKeys xs = true := by
  cases xs with
  | nil => rfl
  | cons x xs =>
    obtain ⟨y, ys', rfl, hxy, hxys⟩ := (sameList_cons x xs ys).mp h
    rw [areKeys, Bool.and_eq_true] at hys ⊢
    exact ⟨isKey_of_same hys.1 hxy, areKeys_of_sameList hys.2 hxys⟩
termination_by sizeOf xs

end

end Value

/-! ## Entries -/

namespace Entries

/-- The value of the last entry under a key. -/
def last? (key : Value) (es : Entries) : Option Value :=
  get? key es.reverse

theorem get?_append (k : Value) (es fs : Entries) :
    get? k (es ++ fs) = (get? k es).or (get? k fs) := by
  induction es with
  | nil => rfl
  | cons e es ih =>
    rw [List.cons_append, get?, get?]
    split
    · rfl
    · exact ih

theorem get?_eq_none {k : Value} {es : Entries} (h : ∀ e ∈ es, k.same e.1 = false) :
    get? k es = none := by
  induction es with
  | nil => rfl
  | cons e es ih =>
    rw [get?, if_neg (by rw [h e List.mem_cons_self]; exact Bool.false_ne_true)]
    exact ih fun f hf => h f (List.mem_cons_of_mem _ hf)

theorem last?_append (k : Value) (es fs : Entries) :
    last? k (es ++ fs) = (last? k fs).or (last? k es) := by
  rw [last?, List.reverse_append, get?_append]
  rfl

theorem last?_cons (k key v : Value) (es : Entries) :
    last? k ((key, v) :: es) = (last? k es).or (if k.same key then some v else none) := by
  rw [last?, List.reverse_cons, get?_append]
  rfl

/-- What is stored under a key is found under it, and what else there was is found as before. -/
theorem get?_put {k : Value} (hk : k.isKey) (key v : Value) (es : Entries) :
    get? k (put key v es) = if k.same key then some v else get? k es := by
  induction es with
  | nil => rfl
  | cons e es ih =>
    rw [put]
    by_cases hkey : key.same e.1 = true
    · rw [if_pos hkey, get?, get?]
      by_cases hsame : k.same key = true
      · rw [if_pos hsame, if_pos (Value.same_trans hk hsame hkey)]
      · have hother : ¬ k.same e.1 = true := fun hke => by
          have he : e.1.isKey := Value.isKey_of_same hk (Value.same_symm hk hke)
          have hsymm := Value.same_symm (Value.isKey_of_same he hkey) hkey
          exact hsame (Value.same_trans hk hke hsymm)
        rw [if_neg hsame, if_neg hother, if_neg hother]
    · rw [if_neg hkey, get?, get?, ih]
      by_cases hke : k.same e.1 = true
      · have hother : ¬ k.same key = true := fun hsame => by
          have hsymm := Value.same_symm hk hsame
          have hkeyed := Value.isKey_of_same hk hsymm
          exact hkey (Value.same_trans hkeyed hsymm hke)
        rw [if_pos hke, if_neg hother, if_pos hke]
      · rw [if_neg hke, if_neg hke]

theorem same_str {name : String} {k : Value} : Value.same (.str name) k ↔ k = .str name := by
  cases k with
  | str s =>
    rw [Value.same, beq_iff_eq, Value.str.injEq, eq_comm]
  | _ => simp [Value.same, Value.sameNumber?]

theorem field?_put (name other : String) (v : Value) (es : Entries) :
    (es.put (.str other) v).field? name = if name = other then some v else es.field? name := by
  unfold field?
  rw [get?_put rfl]
  by_cases h : name = other
  · rw [if_pos h, if_pos (same_str.mpr (congrArg Value.str h.symm))]
  · have hsame : ¬ Value.same (.str name) (.str other) = true := fun hsame =>
      h (Value.str.inj (same_str.mp hsame)).symm
    rw [if_neg h, if_neg hsame]

theorem get?_congr {k k' : Value} (hk : k.isKey) (h : k.same k' = true) (es : Entries) :
    get? k es = get? k' es := by
  induction es with
  | nil => rfl
  | cons e es ih =>
    have hsymm := Value.same_symm hk h
    have hk' := Value.isKey_of_same hk hsymm
    have hiff : k.same e.1 = true ↔ k'.same e.1 = true :=
      ⟨Value.same_trans hk' hsymm, Value.same_trans hk h⟩
    rw [get?, get?, ih]
    simp only [hiff]

/-- Of entries that are stored one after the other, the last one under a key counts. -/
theorem get?_putAll {k : Value} (hk : k.isKey) (es updates : Entries) :
    get? k (putAll es updates) = (last? k updates).or (get? k es) := by
  induction updates generalizing es with
  | nil => rfl
  | cons e updates ih =>
    obtain ⟨key, v⟩ := e
    show get? k (putAll (put key v es) updates) = _
    rw [ih, get?_put hk, last?_cons, Option.or_assoc]
    split <;> rfl

/-- No two entries are under the same key. -/
def Distinct (es : Entries) : Prop :=
  es.Pairwise fun e f => e.1.same f.1 = false

/-- Where keys are different, the last entry under a key is the only one. -/
theorem last?_eq_get? {k : Value} (hk : k.isKey) {es : Entries} (h : es.Distinct) :
    last? k es = get? k es := by
  induction es with
  | nil => rfl
  | cons e es ih =>
    obtain ⟨hfirst, hrest⟩ := List.pairwise_cons.mp h
    rw [last?_cons, ih hrest, get?]
    split
    · next hke =>
      have hnone : get? k es = none := get?_eq_none fun f hf => by
        have hek := Value.same_symm hk hke
        have he := Value.isKey_of_same hk hek
        refine Bool.eq_false_iff.mpr fun hkf => ?_
        have hef := Value.same_trans he hek hkf
        exact Bool.false_ne_true ((hfirst f hf).symm.trans hef)
      rw [hnone, Option.none_or]
    · rw [Option.or_none]

theorem key_of_mem_put {key v : Value} {es : Entries} {f : Value × Value}
    (hf : f ∈ put key v es) : f.1 = key ∨ ∃ e ∈ es, f.1 = e.1 := by
  induction es with
  | nil => exact .inl (congrArg Prod.fst (List.mem_singleton.mp hf))
  | cons e es ih =>
    rw [put] at hf
    split at hf
    · rcases List.mem_cons.mp hf with rfl | hf
      · exact .inr ⟨e, List.mem_cons_self, rfl⟩
      · exact .inr ⟨f, List.mem_cons_of_mem _ hf, rfl⟩
    · rcases List.mem_cons.mp hf with rfl | hf
      · exact .inr ⟨_, List.mem_cons_self, rfl⟩
      · exact (ih hf).imp_right fun ⟨e', he', heq⟩ => ⟨e', List.mem_cons_of_mem _ he', heq⟩

theorem key_of_mem_putAll {es updates : Entries} {f : Value × Value} (hf : f ∈ putAll es updates) :
    (∃ e ∈ es, f.1 = e.1) ∨ ∃ u ∈ updates, f.1 = u.1 := by
  induction updates generalizing es with
  | nil => exact .inl ⟨f, hf, rfl⟩
  | cons u updates ih =>
    have hf' : f ∈ putAll (put u.1 u.2 es) updates := hf
    rcases ih hf' with ⟨e, he, hkey⟩ | ⟨u', hu', hkey⟩
    · rcases key_of_mem_put he with he | ⟨e', he', heq⟩
      · exact .inr ⟨u, List.mem_cons_self, hkey.trans he⟩
      · exact .inl ⟨e', he', hkey.trans heq⟩
    · exact .inr ⟨u', List.mem_cons_of_mem _ hu', hkey⟩

theorem Distinct.put {es : Entries} (h : es.Distinct) {key : Value} (hkey : key.isKey) (v : Value) :
    (es.put key v).Distinct := by
  induction es with
  | nil => exact List.pairwise_singleton _ _
  | cons e es ih =>
    obtain ⟨hfirst, hrest⟩ := List.pairwise_cons.mp h
    rw [Entries.put]
    split
    · exact List.pairwise_cons.mpr ⟨hfirst, hrest⟩
    · next hother =>
      refine List.pairwise_cons.mpr ⟨fun f hf => ?_, ih hrest⟩
      rcases key_of_mem_put hf with hf | ⟨f', hf', hf⟩
      · rw [hf]
        refine Bool.eq_false_iff.mpr fun hsame => hother ?_
        exact Value.same_symm (Value.isKey_of_same hkey hsame) hsame
      · rw [hf]
        exact hfirst f' hf'

theorem Distinct.putAll_of_isKey {es updates : Entries} (h : es.Distinct)
    (hkeys : ∀ p ∈ updates, p.1.isKey) : (es.putAll updates).Distinct := by
  induction updates generalizing es with
  | nil => exact h
  | cons u updates ih =>
    obtain ⟨hu, hupdates⟩ := List.forall_mem_cons.mp hkeys
    exact ih (h.put hu u.2) hupdates

/-- Entries that are stored one after the other have each key once. -/
theorem ofPairs_distinct {pairs : List (Value × Value)} (h : ∀ p ∈ pairs, p.1.isKey) :
    (ofPairs pairs).Distinct :=
  Distinct.putAll_of_isKey .nil h

theorem field?_cons (name : String) (k v : Value) (es : Entries) :
    field? name ((k, v) :: es) = if Value.same (.str name) k then some v else field? name es := rfl

theorem str_mem_keys {name : String} {es : Entries} :
    .str name ∈ es.keys ↔ ∃ v, es.field? name = some v := by
  induction es with
  | nil => simp [keys, field?, get?]
  | cons e es ih =>
    obtain ⟨k, v⟩ := e
    have hkeys : .str name ∈ keys ((k, v) :: es) ↔ k = .str name ∨ .str name ∈ keys es := by
      rw [keys, List.map_cons, List.mem_cons, eq_comm]
      rfl
    rw [hkeys, field?_cons, ih, ← same_str]
    split
    · next hsame => simp [hsame]
    · next hother => simp [hother]

theorem field?_ofPairs (name : String) (pairs : List (Value × Value)) :
    (ofPairs pairs).field? name = field? name pairs.reverse := by
  rw [field?, ofPairs, get?_putAll rfl]
  exact Option.or_none

end Entries

end Reflash
