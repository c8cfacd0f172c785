import Mathlib.Data.List.Nodup

set_option autoImplicit false

/-! # Pairs that are looked up

The nodes of a file store and the verbs of a plugin are lists of pairs that are looked up by what stands
first in them, and both are stored in the same way: in the place of the pairs of that name, or behind
all others (`Pairs.store`). What is found after that is said once here (`Pairs.lookup_store`,
`Pairs.lookup_foldl_store`), also for names that are distinct (`Pairs.lookup_eq_some_iff_mem`). -/

namespace Reflash

namespace Pairs

variable {κ α : Type} [BEq κ]

/-- The pairs with one more, in the place of those of its name if there are any. -/
def store (pairs : List (κ × α)) (p : κ × α) : List (κ × α) :=
  if pairs.any fun old => old.1 == p.1 then pairs.map fun old => if old.1 == p.1 then p else old
  else pairs ++ [p]

variable [LawfulBEq κ]

/-! ## Names -/

theorem any_iff {name : κ} {pairs : List (κ × α)} :
    (pairs.any fun p => p.1 == name) = true ↔ name ∈ pairs.map Prod.fst := by
  simp

theorem lookup_eq_none_iff {name : κ} {pairs : List (κ × α)} :
    pairs.lookup name = none ↔ name ∉ pairs.map Prod.fst := by
  rw [List.lookup_eq_none_iff, List.mem_map]
  constructor
  · rintro h ⟨p, hp, rfl⟩
    exact bne_iff_ne.mp (h p hp) rfl
  · intro h p hp
    exact bne_iff_ne.mpr fun heq => h ⟨p, hp, heq.symm⟩

theorem mem_of_lookup {pairs : List (κ × α)} {name : κ} {a : α} (h : pairs.lookup name = some a) :
    (name, a) ∈ pairs := by
  obtain ⟨before, after, rfl, -⟩ := List.lookup_eq_some_iff.mp h
  simp

theorem lookup_eq_some_iff_mem {pairs : List (κ × α)} (h : (pairs.map Prod.fst).Nodup) {name : κ}
    {a : α} : pairs.lookup name = some a ↔ (name, a) ∈ pairs := by
  refine ⟨mem_of_lookup, fun hmem => ?_⟩
  obtain ⟨before, after, rfl⟩ := List.append_of_mem hmem
  refine List.lookup_eq_some_iff.mpr ⟨before, after, rfl, fun p hp => ?_⟩
  rw [List.map_append, List.map_cons, List.nodup_append] at h
  exact bne_iff_ne.mpr (Ne.symm (h.2.2 _ (List.mem_map_of_mem hp) _ (List.mem_cons_self ..)))

/-- What has other names, each once, is only added. -/
theorem foldl_store_of_nodup {pairs updates : List (κ × α)}
    (h : ((pairs ++ updates).map Prod.fst).Nodup) : updates.foldl store pairs = pairs ++ updates := by
  induction updates generalizing pairs with
  | nil => exact (List.append_nil pairs).symm
  | cons p updates ih =>
    have hnew : ¬(pairs.any fun old => old.1 == p.1) = true := by
      rw [any_iff]
      rw [List.map_append, List.map_cons, List.nodup_append] at h
      exact fun hmem => h.2.2 _ hmem _ (List.mem_cons_self ..) rfl
    rw [List.foldl_cons, store, if_neg hnew, ih (by simpa using h)]
    simp

variable [DecidableEq κ]

theorem map_fst_store (pairs : List (κ × α)) (p : κ × α) :
    (store pairs p).map Prod.fst =
      if p.1 ∈ pairs.map Prod.fst then pairs.map Prod.fst else pairs.map Prod.fst ++ [p.1] := by
  unfold store
  simp only [any_iff]
  split
  · rw [List.map_map]
    refine List.map_congr_left fun old _ => ?_
    by_cases h : old.1 = p.1 <;> simp [h]
  · simp

theorem store_nodup {pairs : List (κ × α)} (h : (pairs.map Prod.fst).Nodup) (p : κ × α) :
    ((store pairs p).map Prod.fst).Nodup := by
  rw [map_fst_store]
  split
  · exact h
  · next hnew => simpa using h.concat hnew

theorem foldl_store_nodup {pairs : List (κ × α)} (h : (pairs.map Prod.fst).Nodup)
    (updates : List (κ × α)) : ((updates.foldl store pairs).map Prod.fst).Nodup := by
  induction updates generalizing pairs with
  | nil => exact h
  | cons p updates ih => exact ih (store_nodup h p)

/-! ## What is found -/

theorem lookup_cons_ite (p : κ × α) (pairs : List (κ × α)) (name : κ) :
    List.lookup name (p :: pairs) = if name = p.1 then some p.2 else pairs.lookup name := by
  rw [List.lookup_cons]
  by_cases h : name = p.1
  · rw [if_pos h, beq_iff_eq.mpr h]
  · rw [if_neg h, beq_eq_false_iff_ne.mpr h]

/-- What is found where the pairs of a name were taken away. -/
theorem lookup_removed (removed name : κ) (pairs : List (κ × α)) :
    (pairs.filter fun p => p.1 != removed).lookup name =
      if name = removed then none else pairs.lookup name := by
  induction pairs with
  | nil => simp
  | cons p pairs ih =>
    rw [List.filter_cons, lookup_cons_ite p pairs]
    by_cases hremoved : p.1 = removed
    · rw [hremoved, if_neg (by simp), ih]
      split <;> rfl
    · rw [if_pos (by simpa using hremoved), lookup_cons_ite, ih]
      by_cases hname : name = p.1
      · rw [if_pos hname, if_neg (hname ▸ hremoved), if_pos hname]
      · rw [if_neg hname, if_neg hname]

/-- What is found where the pairs of a name were replaced. -/
theorem lookup_replaced (p : κ × α) (pairs : List (κ × α)) (name : κ) :
    (pairs.map fun old => if old.1 == p.1 then p else old).lookup name =
      if name = p.1 then (pairs.lookup name).map fun _ => p.2 else pairs.lookup name := by
  induction pairs with
  | nil => simp
  | cons old pairs ih =>
    rw [List.map_cons, lookup_cons_ite, lookup_cons_ite, ih]
    by_cases hold : old.1 = p.1
    · by_cases h : name = p.1 <;> simp [h, hold]
    · by_cases h : name = p.1
      · simp [h, hold, Ne.symm hold]
      · simp [h, hold]

theorem lookup_store (pairs : List (κ × α)) (p : κ × α) (name : κ) :
    (store pairs p).lookup name = if name = p.1 then some p.2 else pairs.lookup name := by
  unfold store
  split
  · next htaken =>
    rw [lookup_replaced]
    split
    · next heq =>
      have hne : pairs.lookup name ≠ none := by
        rw [ne_eq, lookup_eq_none_iff, heq, not_not]
        exact any_iff.mp htaken
      obtain ⟨old, hold⟩ := Option.ne_none_iff_exists'.mp hne
      rw [hold, Option.map_some]
    · rfl
  · next hnew =>
    have hnone : pairs.lookup p.1 = none := lookup_eq_none_iff.mpr (any_iff.not.mp hnew)
    rw [List.lookup_append, lookup_cons_ite]
    split
    · next heq => rw [heq, hnone, Option.none_or]
    · rw [List.lookup_nil, Option.or_none]

/-- Of what is stored one after the other the last is found. -/
theorem lookup_foldl_store (updates pairs : List (κ × α)) (name : κ) :
    (updates.foldl store pairs).lookup name = (updates.reverse.lookup name).or (pairs.lookup name) := by
  induction updates generalizing pairs with
  | nil => rfl
  | cons p updates ih =>
    rw [List.foldl_cons, ih, lookup_store, List.reverse_cons, List.lookup_append, lookup_cons_ite,
      List.lookup_nil]
    split <;> simp

end Pairs

end Reflash
