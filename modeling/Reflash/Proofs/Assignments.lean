import Reflash.CommandLine.Options
import Reflash.Proofs.Keys
import Reflash.Proofs.Splitting

set_option autoImplicit false

/-! # Options that assign values to variables

An option is split at its first equals sign (`Options.Splits`). What stands before it, trimmed, is a
variable, and what stands behind it is read as a value, by whatever reader. Whether there is a variable
is asked before trimming, so that one of blanks alone becomes the empty one (`Options.Nameless`).

Several options either fail, as the first one of them does that fails (`Options.Fails`), or make a mapping
in which each variable has the value of the last option for it (`Options.Assigned`). A failure is one of
usage unless it is that of a value which cannot be read. -/

namespace Reflash

/-- Computations for the elements of a list all have results, or they fail as the first one does that
fails. -/
theorem Fallible.mapM_cases {α β : Type} (f : α → Fallible β) (xs : List α) :
    ((∀ x ∈ xs, ∃ y, f x = .ok y) ∧ xs.mapM f = .ok (xs.filterMap fun x => (f x).toOption)) ∨
      ∃ before x after e, xs = before ++ x :: after ∧ (∀ y ∈ before, ∃ z, f y = .ok z) ∧
        f x = .error e ∧ xs.mapM f = .error e := by
  induction xs with
  | nil => exact .inl ⟨by simp, rfl⟩
  | cons x xs ih =>
    cases hx : f x with
    | error e => exact .inr ⟨[], x, xs, e, rfl, by simp, hx, by rw [List.mapM_cons, hx]; rfl⟩
    | ok y =>
      rcases ih with ⟨hall, hxs⟩ | ⟨before, x', after, e, rfl, hbefore, hx', hxs⟩
      · refine .inl ⟨List.forall_mem_cons.mpr ⟨⟨y, hx⟩, hall⟩, ?_⟩
        rw [List.mapM_cons, hx, hxs, List.filterMap_cons_some (b := y) (by rw [hx]; rfl)]
        rfl
      · refine .inr ⟨x :: before, x', after, e, rfl, List.forall_mem_cons.mpr ⟨⟨y, hx⟩, hbefore⟩,
          hx', ?_⟩
        rw [List.mapM_cons, hx, hxs]
        rfl

namespace Options

variable {read : String → Fallible Value}

/-! ## One option -/

/-- An option has these texts before and behind its first equals sign. -/
def Splits (option var value : String) : Prop :=
  option = var ++ "=" ++ value ∧ '=' ∉ var.toList

theorem splits_iff {option var value : String} :
    Splits option var value ↔ Text.splitFirst '=' option = some (var, value) := by
  rw [Text.splitFirst_eq_some_iff]
  rfl

theorem Splits.unique {option var value var' value' : String} (h : Splits option var value)
    (h' : Splits option var' value') : var = var' ∧ value = value' := by
  have heq := (splits_iff.mp h).symm.trans (splits_iff.mp h')
  exact Prod.mk.inj (Option.some.inj heq)

/-- The value that a text stands for: nothing is the empty text. -/
def reading (read : String → Fallible Value) (value : String) : Fallible Value :=
  if value = "" then .ok (.str "") else read value

/-- An option names a variable and has a value that can be read. -/
def Assigns (read : String → Fallible Value) (option : String) : Prop :=
  ∃ var value v, Splits option var value ∧ var ≠ "" ∧ reading read value = .ok v

/-- Why an option cannot be used: nothing says where the value begins, no variable stands before it, or
it cannot be read. -/
inductive Fails (read : String → Fallible Value) (option : String) : Fault → Prop
  | unassigned (h : '=' ∉ option.toList) : Fails read option (parseOne.unexpected option)
  | unnamed {value : String} (h : Splits option "" value) :
    Fails read option (parseOne.unexpected option)
  | unreadable {var value : String} {e : Fault} (h : Splits option var value) (hvar : var ≠ "")
    (hread : read value = .error e) : Fails read option e

/-- The variable of an option is not empty, but only until it is trimmed. -/
def Nameless (option : String) : Prop :=
  ∃ var value, Splits option var value ∧ var ≠ "" ∧ ∀ c ∈ var.toList, Text.isBlank c = true

theorem parseOne_of_splits {option var value : String} (h : Splits option var value)
    (hvar : var ≠ "") :
    parseOne read option = (reading read value).map fun v => (.str (Text.trim var), v) := by
  unfold parseOne reading
  rw [splits_iff.mp h]
  by_cases hvalue : value = ""
  · simp [hvalue, Except.map]
  · cases hread : read value <;> simp [hvalue, hread, Except.map]

theorem parseOne_cases (read : String → Fallible Value) (option : String) :
    (∃ var value v, Splits option var value ∧ var ≠ "" ∧ reading read value = .ok v ∧
      parseOne read option = .ok (.str (Text.trim var), v)) ∨
    ∃ e, Fails read option e ∧ parseOne read option = .error e := by
  cases hsplit : Text.splitFirst '=' option with
  | none =>
    refine .inr ⟨_, .unassigned (Text.splitFirst_eq_none_iff.mp hsplit), ?_⟩
    rw [parseOne, hsplit]
  | some p =>
    obtain ⟨var, value⟩ := p
    have h := splits_iff.mpr hsplit
    by_cases hvar : var = ""
    · subst hvar
      refine .inr ⟨_, .unnamed h, ?_⟩
      rw [parseOne, hsplit]
      rfl
    · have hparse : parseOne read option = (reading read value).map fun v => (.str (Text.trim var), v) :=
        parseOne_of_splits h hvar
      cases hread : reading read value with
      | ok v => exact .inl ⟨var, value, v, h, hvar, hread, hparse.trans (by rw [hread]; rfl)⟩
      | error e =>
        refine .inr ⟨e, .unreadable h hvar ?_, hparse.trans (by rw [hread]; rfl)⟩
        unfold reading at hread
        split at hread
        · cases hread
        · exact hread

theorem parseOne_eq_ok {option : String} {p : Value × Value} (h : parseOne read option = .ok p) :
    ∃ var value, Splits option var value ∧ var ≠ "" ∧ reading read value = .ok p.2 ∧
      p.1 = .str (Text.trim var) := by
  rcases parseOne_cases read option with ⟨var, value, v, hsplits, hvar, hread, hok⟩ | ⟨e, -, herror⟩
  · cases h.symm.trans hok
    exact ⟨var, value, hsplits, hvar, hread, rfl⟩
  · cases h.symm.trans herror

theorem Fails.isUnusable {option : String} {e : Fault} (h : Fails read option e) :
    e.isUnusable = true ∨ ∃ var value, Splits option var value ∧ read value = .error e := by
  cases h with
  | unassigned | unnamed => exact .inl rfl
  | unreadable hsplits _ hread => exact .inr ⟨_, _, hsplits, hread⟩

/-! ## Several options -/

/-- A mapping is what options assign: its keys are the trimmed variables, each once, and each has the
value of the last option for it. -/
structure Assigned (read : String → Fallible Value) (options : List String) (es : Entries) : Prop where
  assigns : ∀ option ∈ options, Assigns read option
  distinct : es.Distinct
  keys : ∀ k, k ∈ es.keys ↔
    ∃ option ∈ options, ∃ var value, Splits option var value ∧ k = .str (Text.trim var)
  trimmed : ∀ k ∈ es.keys, ∃ name, k = .str name ∧ Text.Trimmed name
  empty : .str "" ∈ es.keys ↔ ∃ option ∈ options, Nameless option
  last : ∀ before option after var value, options = before ++ option :: after →
    Splits option var value →
    (∀ later ∈ after, ∀ var' value', Splits later var' value' → Text.trim var' ≠ Text.trim var) →
    ∃ v, reading read value = .ok v ∧ es.field? (Text.trim var) = some v

/-- The entries that options assign, in order. -/
def entries (read : String → Fallible Value) (options : List String) : Entries :=
  options.filterMap fun option => (parseOne read option).toOption

theorem mem_entries {options : List String} {p : Value × Value} :
    p ∈ entries read options ↔ ∃ option ∈ options, parseOne read option = .ok p := by
  simp only [entries, List.mem_filterMap]
  refine exists_congr fun option => and_congr_right fun _ => ?_
  cases parseOne read option <;> simp [Except.toOption]

section

variable {options : List String} (h : ∀ option ∈ options, Assigns read option)

include h

theorem parseOne_of_assigns {option var value : String} (hoption : option ∈ options)
    (hsplits : Splits option var value) :
    ∃ v, reading read value = .ok v ∧ parseOne read option = .ok (.str (Text.trim var), v) := by
  obtain ⟨var', value', v, hsplits', hvar, hread⟩ := h option hoption
  obtain ⟨rfl, rfl⟩ := hsplits.unique hsplits'
  exact ⟨v, hread, (parseOne_of_splits hsplits hvar).trans (by rw [hread]; rfl)⟩

theorem mem_keys_iff (k : Value) : k ∈ (Entries.ofPairs (entries read options)).keys ↔
    ∃ option ∈ options, ∃ var value, Splits option var value ∧ k = .str (Text.trim var) := by
  constructor
  · intro hk
    obtain ⟨e, he, rfl⟩ := List.mem_map.mp hk
    rcases Entries.key_of_mem_putAll he with ⟨e', he', -⟩ | ⟨p, hp, hkey⟩
    · cases he'
    · obtain ⟨option, hoption, hparse⟩ := mem_entries.mp hp
      obtain ⟨var, value, hsplits, -, -, hname⟩ := parseOne_eq_ok hparse
      exact ⟨option, hoption, var, value, hsplits, hkey.trans hname⟩
  · rintro ⟨option, hoption, var, value, hsplits, rfl⟩
    obtain ⟨v, -, hparse⟩ := parseOne_of_assigns h hoption hsplits
    have hmem : (.str (Text.trim var), v) ∈ (entries read options).reverse :=
      List.mem_reverse.mpr (mem_entries.mpr ⟨option, hoption, hparse⟩)
    rw [Entries.str_mem_keys, Entries.field?_ofPairs, ← Entries.str_mem_keys]
    exact List.mem_map_of_mem hmem

theorem empty_mem_keys_iff : .str "" ∈ (Entries.ofPairs (entries read options)).keys ↔
    ∃ option ∈ options, Nameless option := by
  rw [mem_keys_iff h]
  refine exists_congr fun option => and_congr_right fun hoption => ?_
  constructor
  · rintro ⟨var, value, hsplits, hname⟩
    obtain ⟨var', value', -, hsplits', hvar, -⟩ := h option hoption
    obtain ⟨rfl, rfl⟩ := hsplits.unique hsplits'
    exact ⟨var, value, hsplits, hvar, Text.trim_eq_empty_iff.mp (Value.str.inj hname).symm⟩
  · rintro ⟨var, value, hsplits, -, hblank⟩
    exact ⟨var, value, hsplits, congrArg Value.str (Text.trim_eq_empty_iff.mpr hblank).symm⟩

/-- Of the options for a variable the last one counts. -/
theorem field?_of_last {before after : List String} {option var value : String}
    (hoptions : options = before ++ option :: after) (hsplits : Splits option var value)
    (hlater : ∀ later ∈ after, ∀ var' value', Splits later var' value' →
      Text.trim var' ≠ Text.trim var) :
    ∃ v, reading read value = .ok v ∧
      (Entries.ofPairs (entries read options)).field? (Text.trim var) = some v := by
  subst hoptions
  obtain ⟨v, hread, hparse⟩ := parseOne_of_assigns h (by simp) hsplits
  have hentries : entries read (before ++ option :: after) =
      entries read before ++ (.str (Text.trim var), v) :: entries read after := by
    rw [entries, List.filterMap_append, List.filterMap_cons_some (by rw [hparse]; rfl)]
    rfl
  have hnone : Entries.last? (.str (Text.trim var)) (entries read after) = none := by
    refine Entries.get?_eq_none fun p hp => Bool.eq_false_iff.mpr fun hsame => ?_
    obtain ⟨later, hmem, hparse'⟩ := mem_entries.mp (List.mem_reverse.mp hp)
    obtain ⟨var', value', hsplits', -, -, hname⟩ := parseOne_eq_ok hparse'
    rw [Entries.same_str, hname, Value.str.injEq] at hsame
    exact hlater later hmem var' value' hsplits' hsame
  refine ⟨v, hread, ?_⟩
  rw [Entries.field?_ofPairs, hentries]
  change Entries.last? _ _ = _
  rw [Entries.last?_append, Entries.last?_cons, hnone, Option.none_or,
    if_pos (Entries.same_str.mpr rfl)]
  rfl

theorem ofPairs_assigned : Assigned read options (Entries.ofPairs (entries read options)) where
  assigns := h
  distinct := by
    refine Entries.ofPairs_distinct fun p hp => ?_
    obtain ⟨option, -, hparse⟩ := mem_entries.mp hp
    obtain ⟨var, -, -, -, -, hname⟩ := parseOne_eq_ok hparse
    rw [hname]
    rfl
  keys := mem_keys_iff h
  trimmed := by
    intro k hk
    obtain ⟨-, -, var, -, -, rfl⟩ := (mem_keys_iff h k).mp hk
    exact ⟨_, rfl, Text.trim_trimmed var⟩
  empty := empty_mem_keys_iff h
  last := fun _ _ _ _ _ hoptions hsplits hlater => field?_of_last h hoptions hsplits hlater

end

/-- Several options fail as the first one of them does that fails, which is a failure of usage unless it
is that of a value which cannot be read; or they make a mapping of what they assign. -/
theorem parse_outcomes (read : String → Fallible Value) (options : List String) :
    (∃ es, parseWith read options = .ok es ∧ Assigned read options es) ∨
      ∃ before bad after e, options = before ++ bad :: after ∧
        (∀ option ∈ before, Assigns read option) ∧ Fails read bad e ∧
        parseWith read options = .error e ∧ (e.isUnusable = true ∨
          ∃ var value, Splits bad var value ∧ read value = .error e) := by
  have hassigns {option : String} (h : ∃ p, parseOne read option = .ok p) : Assigns read option := by
    obtain ⟨p, hp⟩ := h
    obtain ⟨var, value, hsplits, hvar, hread, -⟩ := parseOne_eq_ok hp
    exact ⟨var, value, p.2, hsplits, hvar, hread⟩
  rcases Fallible.mapM_cases (parseOne read) options with
    ⟨hall, hparse⟩ | ⟨before, bad, after, e, rfl, hbefore, hbad, hparse⟩
  · refine .inl ⟨Entries.ofPairs (entries read options), ?_, ?_⟩
    · rw [parseWith, hparse]
      rfl
    · exact ofPairs_assigned fun option hoption => hassigns (hall option hoption)
  · rcases parseOne_cases read bad with ⟨_, _, _, -, -, -, hok⟩ | ⟨e', hfails, herror⟩
    · cases hbad.symm.trans hok
    · cases hbad.symm.trans herror
      refine .inr ⟨before, bad, after, e, rfl, fun option hoption => hassigns (hbefore option hoption),
        hfails, ?_, hfails.isUnusable⟩
      rw [parseWith, hparse]
      rfl

/-- A variable of blanks alone is accepted and becomes the empty one, and a value that is no document
fails as such, which is no failure of usage. -/
theorem blank_variable_assigned :
    parse [" =1"] = .ok [(.str "", .int 1)] ∧
      parse ["a=["] = .error (.malformed .yaml) ∧
        (Fault.malformed .yaml).isUnusable = false :=
  ⟨by cbv, by cbv, rfl⟩

end Options

end Reflash
