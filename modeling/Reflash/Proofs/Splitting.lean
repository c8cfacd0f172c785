import Mathlib.Data.List.TakeWhile
import Reflash.Text.Blank
import Reflash.Text.Search

set_option autoImplicit false

/-! # Split and trimmed texts

The first separator of a text splits it in one way only (`Text.splitFirst_eq_some_iff`), and a text
without one is its own only part. A trimmed text is what is left between blanks
(`Text.trimList_padded`): it neither begins nor ends with one (`Text.trim_trimmed`), and nothing is left
of blanks alone (`Text.trim_eq_empty_iff`). -/

namespace Reflash.Text

variable {sep : Char}

/-! ## Splitting -/

theorem splitFirstList_eq_some {text before after : List Char}
    (h : splitFirstList sep text = some (before, after)) : text = before ++ sep :: after := by
  induction text generalizing before with
  | nil => cases h
  | cons c cs ih =>
    unfold splitFirstList at h
    split at h
    · next hc =>
      cases h
      rw [hc, List.nil_append]
    · obtain ⟨⟨before', after'⟩, hcs, heq⟩ := Option.map_eq_some_iff.mp h
      cases heq
      rw [ih hcs, List.cons_append]

theorem not_mem_of_splitFirstList {text before after : List Char}
    (h : splitFirstList sep text = some (before, after)) : sep ∉ before := by
  induction text generalizing before with
  | nil => cases h
  | cons c cs ih =>
    unfold splitFirstList at h
    split at h
    · cases h
      exact List.not_mem_nil
    · next hc =>
      obtain ⟨⟨before', after'⟩, hcs, heq⟩ := Option.map_eq_some_iff.mp h
      cases heq
      exact List.not_mem_cons_of_ne_of_not_mem (Ne.symm hc) (ih hcs)

theorem splitFirstList_eq_none_iff {text : List Char} :
    splitFirstList sep text = none ↔ sep ∉ text := by
  induction text with
  | nil => simp [splitFirstList]
  | cons c cs ih =>
    unfold splitFirstList
    split
    · next hc => simp [hc]
    · next hc =>
      rw [Option.map_eq_none_iff, ih, List.mem_cons, not_or]
      exact ⟨fun h => ⟨Ne.symm hc, h⟩, And.right⟩

/-- A text is what stands before the first separator, the separator, and what stands after it. -/
theorem splitFirst_eq_some {text before after : String}
    (h : splitFirst sep text = some (before, after)) :
    text = before ++ String.singleton sep ++ after := by
  obtain ⟨⟨before', after'⟩, hlist, heq⟩ := Option.map_eq_some_iff.mp h
  cases heq
  rw [← String.toList_inj]
  simp [splitFirstList_eq_some hlist]

theorem splitFirst_append {before after : String} (h : sep ∉ before.toList) :
    splitFirst sep (before ++ String.singleton sep ++ after) = some (before, after) := by
  have hlist {cs : List Char} (hcs : sep ∉ cs) (cs' : List Char) :
      splitFirstList sep (cs ++ sep :: cs') = some (cs, cs') := by
    induction cs with
    | nil => exact if_pos rfl
    | cons c cs ih =>
      obtain ⟨hc, hcs⟩ := List.ne_and_not_mem_of_not_mem_cons hcs
      rw [List.cons_append, splitFirstList, if_neg (Ne.symm hc), ih hcs]
      rfl
  have htext : (before ++ String.singleton sep ++ after).toList =
      before.toList ++ sep :: after.toList := by
    simp
  rw [splitFirst, htext, hlist h]
  simp

theorem splitFirst_eq_some_iff {text before after : String} :
    splitFirst sep text = some (before, after) ↔
      text = before ++ String.singleton sep ++ after ∧ sep ∉ before.toList := by
  constructor
  · intro h
    refine ⟨splitFirst_eq_some h, ?_⟩
    obtain ⟨⟨before', after'⟩, hlist, heq⟩ := Option.map_eq_some_iff.mp h
    cases heq
    simpa using not_mem_of_splitFirstList hlist
  · rintro ⟨rfl, h⟩
    exact splitFirst_append h

theorem splitFirst_eq_none_iff {text : String} : splitFirst sep text = none ↔ sep ∉ text.toList := by
  rw [splitFirst, Option.map_eq_none_iff, splitFirstList_eq_none_iff]

theorem splitList_of_notMem {cs : List Char} (h : sep ∉ cs) : splitList sep cs = [cs] := by
  induction cs with
  | nil => rfl
  | cons c cs ih =>
    obtain ⟨hc, hcs⟩ := List.ne_and_not_mem_of_not_mem_cons h
    rw [splitList, ih hcs]
    exact if_neg (Ne.symm hc)

/-! ## Trimming -/

/-- A text with blanks around it. -/
def Padded (core cs : List Char) : Prop :=
  ∃ as bs, (∀ c ∈ as, isBlank c = true) ∧ (∀ c ∈ bs, isBlank c = true) ∧ cs = as ++ core ++ bs

theorem trimEndList_cons (c : Char) (cs : List Char) : trimEndList (c :: cs) =
    if (trimEndList cs).isEmpty && isBlank c then [] else c :: trimEndList cs := rfl

theorem trimEndList_padded (cs : List Char) :
    ∃ bs, (∀ c ∈ bs, isBlank c = true) ∧ cs = trimEndList cs ++ bs := by
  induction cs with
  | nil => exact ⟨[], by simp, rfl⟩
  | cons c cs ih =>
    obtain ⟨bs, hbs, hcs⟩ := ih
    rw [trimEndList_cons]
    split
    · next hblank =>
      rw [Bool.and_eq_true, List.isEmpty_iff] at hblank
      rw [hblank.1, List.nil_append] at hcs
      exact ⟨c :: bs, List.forall_mem_cons.mpr ⟨hblank.2, hbs⟩, by rw [← hcs]; rfl⟩
    · exact ⟨bs, hbs, congrArg (c :: ·) hcs⟩

theorem trimList_padded (cs : List Char) : Padded (trimList cs) cs := by
  obtain ⟨bs, hbs, hcs⟩ := trimEndList_padded (cs.dropWhile isBlank)
  refine ⟨cs.takeWhile isBlank, bs, List.all_eq_true.mp List.all_takeWhile, hbs, ?_⟩
  rw [List.append_assoc, trimList, ← hcs, List.takeWhile_append_dropWhile]

/-- Neither the first nor the last character is a blank. -/
def Trimmed (s : String) : Prop :=
  (∀ c, s.toList.head? = some c → isBlank c = false) ∧
    ∀ c, s.toList.getLast? = some c → isBlank c = false

theorem trimEndList_getLast? {cs : List Char} {c : Char} (h : (trimEndList cs).getLast? = some c) :
    isBlank c = false := by
  induction cs with
  | nil => cases h
  | cons d cs ih =>
    rw [trimEndList_cons] at h
    split at h
    · cases h
    · next hkept =>
      cases hrest : trimEndList cs with
      | nil =>
        rw [hrest] at h hkept
        cases h
        simpa using hkept
      | cons e rest =>
        rw [hrest, List.getLast?_cons_cons, ← hrest] at h
        exact ih h

theorem trim_trimmed (s : String) : Trimmed (trim s) := by
  rw [Trimmed, trim, String.toList_ofList]
  refine ⟨fun c hc => ?_, fun c => trimEndList_getLast?⟩
  obtain ⟨bs, -, hcs⟩ := trimEndList_padded (s.toList.dropWhile isBlank)
  have hfirst : (s.toList.dropWhile isBlank).head? = some c := by
    rw [hcs, List.head?_append]
    exact Option.or_eq_some_iff.mpr (.inl hc)
  have hkept := List.head?_dropWhile_not isBlank s.toList
  rw [hfirst] at hkept
  simpa using hkept

/-- Nothing is left of a text exactly if it is blank. -/
theorem trim_eq_empty_iff {s : String} : trim s = "" ↔ ∀ c ∈ s.toList, isBlank c = true := by
  have hempty : trim s = "" ↔ trimList s.toList = [] := by
    rw [← String.toList_inj, trim, String.toList_ofList, String.toList_empty]
  rw [hempty]
  constructor
  · intro h
    obtain ⟨as, bs, has, hbs, hs⟩ := trimList_padded s.toList
    rw [h, List.append_nil] at hs
    rw [hs, List.forall_mem_append]
    exact ⟨has, hbs⟩
  · intro h
    rw [trimList, List.dropWhile_eq_nil_iff.mpr h]
    rfl

end Reflash.Text
