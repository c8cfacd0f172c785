import Reflash.Proofs.Asking
import Reflash.Proofs.Keys

set_option autoImplicit false

/-! # What typed answers set

The options of a question are asked for one after the other, and each answer sets the variable of its
option (`Console.Answered`): an empty one to what it is already, another one to what it says
(`Console.Gives`). What no option names stays as it is.

An answer may also set nothing and end the question (`Console.Refuses`). What is printed before it must be
such as can be written, and its variable must be a key. Where values are listed, a text of digits is taken
for a position, but not every such text is a number, and any other text is compared with the listed values,
not all of which need have a text (`Console.Misread`). -/

namespace Reflash

namespace Text

theorem digitsValue?_eq_none_iff {acc : Nat} {cs : List Char} :
    digitsValue? acc cs = none ↔ ∃ c ∈ cs, digitValue? c = none := by
  induction cs generalizing acc with
  | nil => simp [digitsValue?]
  | cons c cs ih =>
    rw [digitsValue?]
    cases hc : digitValue? c with
    | none => simp [hc]
    | some d => simp [hc, ih]

/-- A text of digits is no number if it has too many of them or one without a place value. -/
theorem number?_eq_none_iff {s : String} (h : allDigits s = true) :
    number? s = none ↔ mostDigits < s.length ∨ ∃ c ∈ s.toList, digitValue? c = none := by
  have hne : s.isEmpty = false := by
    rw [allDigits, Bool.and_eq_true, Bool.not_eq_true'] at h
    exact h.1
  rw [number?, hne, Bool.false_or]
  split
  · next hlong => simp [of_decide_eq_true hlong]
  · next hshort =>
    have hle : ¬ mostDigits < s.length := fun hlt => hshort (decide_eq_true hlt)
    rw [digitsValue?_eq_none_iff, or_iff_right hle]

theorem allDigits_of_number? {s : String} {i : Nat} (h : number? s = some i) :
    allDigits s = true := by
  rw [number?] at h
  split at h
  · cases h
  · next hread =>
    rw [Bool.or_eq_true, not_or] at hread
    have hdigits : ∀ c ∈ s.toList, isDigit c = true := fun c hc => by
      have hsome : digitValue? c ≠ none := fun hnone =>
        Option.some_ne_none i (h.symm.trans (digitsValue?_eq_none_iff.mpr ⟨c, hc, hnone⟩))
      rw [isDigit, Option.isSome_iff_ne_none.mpr hsome, Bool.true_or]
    rw [allDigits, Bool.and_eq_true, List.all_eq_true]
    exact ⟨by simpa using hread.1, hdigits⟩

end Text

namespace Console

/-! ## One answer -/

/-- An option is a box that is checked or not. -/
def IsCheckbox (option : Entries) : Prop :=
  option.fieldD "type" = .str "checkbox"

theorem isCheckbox_iff {option : Entries} :
    Value.same (option.fieldD "type") (.str "checkbox") = true ↔ IsCheckbox option := by
  unfold IsCheckbox
  cases option.fieldD "type" <;> simp [Value.same, Value.sameNumber?]

/-- A listed value can be chosen by a text. -/
def Named (es : Entries) (answer : String) : Prop :=
  answer = (es.fieldD "value").text ∨ answer = (es.fieldD "label").text

/-- What an answer gives to an option with the values `listed`, whose variable is `present` so far. -/
inductive Gives (option : Entries) (listed : List Entries) (present : Value) :
    String → Value → Prop
  | kept : Gives option listed present "" present
  | checked {answer : String} (hanswer : answer ≠ "") (hbox : IsCheckbox option) :
    Gives option listed present answer (.bool (checks.contains (Text.lowercase answer)))
  | typed {answer : String} (hanswer : answer ≠ "") (hbox : ¬ IsCheckbox option)
    (hnone : listed = []) : Gives option listed present answer (.str answer)
  | numbered {answer : String} {i : Nat} {es : Entries} (hanswer : answer ≠ "")
    (hbox : ¬ IsCheckbox option) (hi : Text.number? answer = some i) (hes : listed[i]? = some es) :
    Gives option listed present answer (es.fieldD "value")
  | named {answer : String} {before after : List Entries} {es : Entries} (hanswer : answer ≠ "")
    (hbox : ¬ IsCheckbox option) (hbeyond : ∀ i, Text.number? answer = some i → listed.length ≤ i)
    (hlisted : listed = before ++ es :: after) (hbefore : ∀ other ∈ before, ¬ Named other answer)
    (hes : Named es answer) : Gives option listed present answer (es.fieldD "value")
  | unlisted {answer : String} (hanswer : answer ≠ "") (hbox : ¬ IsCheckbox option)
    (hsome : listed ≠ []) (hbeyond : ∀ i, Text.number? answer = some i → listed.length ≤ i)
    (hnone : ∀ es ∈ listed, ¬ Named es answer) : Gives option listed present answer present

instance (es : Entries) (answer : String) : Decidable (Named es answer) :=
  inferInstanceAs (Decidable (_ ∨ _))

/-- The first listed value that an answer names is what a search for it finds. -/
theorem find?_named {listed before after : List Entries} {es : Entries} {answer : String}
    (hlisted : listed = before ++ es :: after) (hbefore : ∀ other ∈ before, ¬ Named other answer)
    (hes : Named es answer) : listed.find? (fun es => Named es answer) = some es :=
  List.find?_eq_some_iff_append.mpr
    ⟨by simpa using hes, before, after, hlisted, fun other hmem => by simpa using hbefore other hmem⟩

/-- The listed value that an answer chooses, by its position or else by a text. -/
def choice? (listed : List Entries) (answer : String) : Option Entries :=
  ((Text.number? answer).bind (listed[·]?)).or (listed.find? fun es => Named es answer)

theorem choice?_of_beyond {listed : List Entries} {answer : String}
    (hbeyond : ∀ i, Text.number? answer = some i → listed.length ≤ i) :
    choice? listed answer = listed.find? fun es => Named es answer := by
  have hposition : (Text.number? answer).bind (listed[·]?) = none :=
    Option.bind_eq_none_iff.mpr fun i hi => List.getElem?_eq_none (hbeyond i hi)
  rw [choice?, hposition, Option.none_or]

/-- The value that an answer gives, in the order in which the ways to give one are tried. -/
def valueGiven (option : Entries) (listed : List Entries) (present : Value) (answer : String) : Value :=
  if answer = "" then present
  else if Value.same (option.fieldD "type") (.str "checkbox") then
    .bool (checks.contains (Text.lowercase answer))
  else if listed = [] then .str answer
  else ((choice? listed answer).map (·.fieldD "value")).getD present

theorem Gives.eq_valueGiven {option : Entries} {listed : List Entries} {present v : Value}
    {answer : String} (h : Gives option listed present answer v) :
    v = valueGiven option listed present answer := by
  have chosen (hanswer : answer ≠ "") (hbox : ¬ IsCheckbox option) (hsome : listed ≠ []) :
      valueGiven option listed present answer =
        ((choice? listed answer).map (·.fieldD "value")).getD present := by
    rw [valueGiven, if_neg hanswer, if_neg (isCheckbox_iff.not.mpr hbox), if_neg hsome]
  cases h with
  | kept => rfl
  | checked hanswer hbox => rw [valueGiven, if_neg hanswer, if_pos (isCheckbox_iff.mpr hbox)]
  | typed hanswer hbox hnone =>
    rw [valueGiven, if_neg hanswer, if_neg (isCheckbox_iff.not.mpr hbox), if_pos hnone]
  | numbered hanswer hbox hi hes =>
    have hsome : listed ≠ [] := by
      rintro rfl
      cases hes
    rw [chosen hanswer hbox hsome, choice?, hi, Option.bind_some, hes, Option.some_or]
    rfl
  | named hanswer hbox hbeyond hlisted hbefore hes =>
    have hsome : listed ≠ [] := by simp [hlisted]
    rw [chosen hanswer hbox hsome, choice?_of_beyond hbeyond, find?_named hlisted hbefore hes]
    rfl
  | unlisted hanswer hbox hsome hbeyond hnone =>
    have hnot : listed.find? (fun es => Named es answer) = none :=
      List.find?_eq_none.mpr fun es hes => by simpa using hnone es hes
    rw [chosen hanswer hbox hsome, choice?_of_beyond hbeyond, hnot]
    rfl

/-- An answer gives an option one value. -/
theorem Gives.unique {option : Entries} {listed : List Entries} {present v v' : Value}
    {answer : String} (h : Gives option listed present answer v)
    (h' : Gives option listed present answer v') : v = v' :=
  h.eq_valueGiven.trans h'.eq_valueGiven.symm

/-- A listed value can be compared with an answer: it and its label can be written. -/
def Comparable (es : Entries) : Prop :=
  (es.fieldD "value").writable = true ∧ (es.fieldD "label").writable = true

/-- An answer that looks like a position is one behind the listed values. -/
def Beyond (listed : List Entries) (answer : String) : Prop :=
  Text.allDigits answer = true → ∃ i, Text.number? answer = some i ∧ listed.length ≤ i

theorem Beyond.le {listed : List Entries} {answer : String} (h : Beyond listed answer) {i : Nat}
    (hi : Text.number? answer = some i) : listed.length ≤ i := by
  obtain ⟨j, hj, hle⟩ := h (Text.allDigits_of_number? hi)
  cases hi.symm.trans hj
  exact hle

/-- Why an answer to an option with listed values cannot be taken: it looks like the position of one but
is no number, since it has more digits than are read, or digits without a place value; or it is compared
with a listed value that cannot be written. -/
inductive Misread (option : Entries) (listed : List Entries) (answer : String) : Fault → Prop
  | number (hbox : ¬ IsCheckbox option) (hsome : listed ≠ [])
    (hdigits : Text.allDigits answer = true)
    (hunread : Text.mostDigits < answer.length ∨ ∃ c ∈ answer.toList, Text.digitValue? c = none) :
    Misread option listed answer .notNumber
  | unwritten {before after : List Entries} {es : Entries} (hanswer : answer ≠ "")
    (hbox : ¬ IsCheckbox option) (hbeyond : Beyond listed answer)
    (hlisted : listed = before ++ es :: after) (hbefore : ∀ other ∈ before, ¬ Named other answer)
    (hes : ¬ Comparable es) : Misread option listed answer .unwritable

section

variable {answer : String} {es : Entries} {vs : List Value}

theorem listedValue_of_named (h : Comparable es) (hes : Named es answer) :
    listedValue answer (.mapping es :: vs) = .ok (some (es.fieldD "value")) := by
  rw [listedValue, Value.shown_of_writable h.1, Value.shown_of_writable h.2]
  exact if_pos (by simpa [Named] using hes)

theorem listedValue_of_not_named (h : Comparable es) (hes : ¬ Named es answer) :
    listedValue answer (.mapping es :: vs) = listedValue answer vs := by
  rw [listedValue, Value.shown_of_writable h.1, Value.shown_of_writable h.2]
  exact if_neg (by simpa [Named] using hes)

theorem listedValue_of_not_comparable (h : ¬ Comparable es) :
    listedValue answer (.mapping es :: vs) = .error .unwritable := by
  rw [listedValue]
  cases hvalue : (es.fieldD "value").writable with
  | false =>
    rw [Value.shown_of_unwritable hvalue]
    rfl
  | true =>
    have hlabel : (es.fieldD "label").writable = false :=
      Bool.eq_false_iff.mpr fun hlabel => h ⟨hvalue, hlabel⟩
    rw [Value.shown_of_writable hvalue, Value.shown_of_unwritable hlabel]
    rfl

end

/-- Listed values are compared with an answer one after the other, up to the first one that it names or
that cannot be written. -/
theorem listedValue_cases (answer : String) (listed : List Entries) :
    (∃ before es after, listed = before ++ es :: after ∧ (∀ other ∈ before, ¬ Named other answer) ∧
      ((Named es answer ∧ listedValue answer (listed.map .mapping) = .ok (some (es.fieldD "value"))) ∨
        (¬ Comparable es ∧ listedValue answer (listed.map .mapping) = .error .unwritable))) ∨
    (∀ es ∈ listed, ¬ Named es answer) ∧ listedValue answer (listed.map .mapping) = .ok none := by
  induction listed with
  | nil => exact .inr ⟨by simp, rfl⟩
  | cons es listed ih =>
    rw [List.map_cons]
    by_cases hcomparable : Comparable es
    · by_cases hes : Named es answer
      · exact .inl ⟨[], es, listed, rfl, by simp, .inl ⟨hes, listedValue_of_named hcomparable hes⟩⟩
      · rw [listedValue_of_not_named hcomparable hes]
        rcases ih with ⟨before, es', after, rfl, hbefore, hvalue⟩ | ⟨hnone, hvalue⟩
        · exact .inl ⟨es :: before, es', after, rfl, List.forall_mem_cons.mpr ⟨hes, hbefore⟩, hvalue⟩
        · exact .inr ⟨List.forall_mem_cons.mpr ⟨hes, hnone⟩, hvalue⟩
    · exact .inl ⟨[], es, listed, rfl, by simp,
        .inr ⟨hcomparable, listedValue_of_not_comparable hcomparable⟩⟩

/-- What stands before a value that cannot be written does not matter if the answer does not name it. -/
theorem listedValue_of_stuck {answer : String} {before after : List Entries} {es : Entries}
    (hbefore : ∀ other ∈ before, ¬ Named other answer) (hes : ¬ Comparable es) :
    listedValue answer ((before ++ es :: after).map .mapping) = .error .unwritable := by
  induction before with
  | nil => exact listedValue_of_not_comparable hes
  | cons other before ih =>
    obtain ⟨hother, hrest⟩ := List.forall_mem_cons.mp hbefore
    rw [List.cons_append, List.map_cons]
    by_cases hcomparable : Comparable other
    · rw [listedValue_of_not_named hcomparable hother]
      exact ih hrest
    · exact listedValue_of_not_comparable hcomparable

section

variable {option : Entries} {listed : List Entries} {answer : String} {present : Value}

/-- An answer that is no position of a listed value is looked for among the values and their labels. -/
theorem gives_or_misread (hanswer : answer ≠ "") (hbox : ¬ IsCheckbox option) (hsome : listed ≠ [])
    (hbeyond : Beyond listed answer) :
    (∃ v, (listedValue answer (listed.map .mapping)).map (·.getD present) = .ok v ∧
      Gives option listed present answer v) ∨
    ∃ e, (listedValue answer (listed.map .mapping)).map (·.getD present) = .error e ∧
      Misread option listed answer e := by
  rcases listedValue_cases answer listed with
    ⟨before, es, after, hlisted, hbefore, ⟨hes, hvalue⟩ | ⟨hes, hvalue⟩⟩ | ⟨hnone, hvalue⟩
  · rw [hvalue]
    exact .inl ⟨_, rfl, .named hanswer hbox (fun _ => hbeyond.le) hlisted hbefore hes⟩
  · rw [hvalue]
    exact .inr ⟨_, rfl, .unwritten hanswer hbox hbeyond hlisted hbefore hes⟩
  · rw [hvalue]
    exact .inl ⟨_, rfl, .unlisted hanswer hbox hsome (fun _ => hbeyond.le) hnone⟩

theorem chosen_cases (hanswer : answer ≠ "") (hbox : ¬ IsCheckbox option) (hsome : listed ≠ []) :
    (∃ v, chosen (listed.map .mapping) answer present = .ok v ∧
      Gives option listed present answer v) ∨
    ∃ e, chosen (listed.map .mapping) answer present = .error e ∧
      Misread option listed answer e := by
  unfold chosen
  split
  · next hdigits =>
    cases hi : Text.number? answer with
    | none =>
      have hunread := (Text.number?_eq_none_iff hdigits).mp hi
      exact .inr ⟨_, rfl, .number hbox hsome hdigits hunread⟩
    | some i =>
      dsimp only
      split
      · next hlt =>
        rw [List.length_map] at hlt
        refine .inl ⟨_, rfl, ?_⟩
        have hes : listed[i]? = some listed[i] := List.getElem?_eq_getElem hlt
        rw [valueAt, List.getElem?_map, hes]
        exact .numbered hanswer hbox hi hes
      · next hge =>
        rw [List.length_map] at hge
        exact gives_or_misread hanswer hbox hsome fun _ => ⟨i, hi, Nat.le_of_not_lt hge⟩
  · next hdigits => exact gives_or_misread hanswer hbox hsome fun h => absurd h hdigits

/-- What is misread is not taken as an answer. -/
theorem optionValue_of_misread {e : Fault} (h : Misread option listed answer e) :
    optionValue option (listed.map .mapping) answer present = .error e := by
  have choosing (hanswer : answer ≠ "") (hbox : ¬ IsCheckbox option) (hsome : listed ≠ []) :
      optionValue option (listed.map .mapping) answer present =
        chosen (listed.map .mapping) answer present := by
    rw [optionValue, if_neg (by simpa using hanswer), if_neg (fun h => hbox (isCheckbox_iff.mp h)),
      if_neg (by simpa using hsome)]
  cases h with
  | number hbox hsome hdigits hunread =>
    have hanswer : answer ≠ "" := by
      rintro rfl
      cases hdigits
    rw [choosing hanswer hbox hsome, chosen, if_pos hdigits,
      (Text.number?_eq_none_iff hdigits).mpr hunread]
  | @unwritten before after es hanswer hbox hbeyond hlisted hbefore hes =>
    rw [choosing hanswer hbox (by simp [hlisted]), chosen]
    have hstuck : listedValue answer (listed.map .mapping) = .error .unwritable :=
      hlisted ▸ listedValue_of_stuck hbefore hes
    split
    · next hdigits =>
      obtain ⟨i, hi, hle⟩ := hbeyond hdigits
      rw [hi]
      dsimp only
      rw [if_neg (by simpa using hle), hstuck]
      rfl
    · rw [hstuck]
      rfl

/-- An answer gives an option its value, unless it is misread. -/
theorem optionValue_cases (option : Entries) (listed : List Entries) (answer : String)
    (present : Value) :
    (∃ v, optionValue option (listed.map .mapping) answer present = .ok v ∧
      Gives option listed present answer v ∧ ∀ e, ¬ Misread option listed answer e) ∨
    ∃ e, optionValue option (listed.map .mapping) answer present = .error e ∧
      Misread option listed answer e := by
  have taken {v : Value} (hvalue : optionValue option (listed.map .mapping) answer present = .ok v)
      (e : Fault) : ¬ Misread option listed answer e := fun h => by
    cases hvalue.symm.trans (optionValue_of_misread h)
  suffices h : (∃ v, optionValue option (listed.map .mapping) answer present = .ok v ∧
      Gives option listed present answer v) ∨
      ∃ e, optionValue option (listed.map .mapping) answer present = .error e ∧
        Misread option listed answer e by
    rcases h with ⟨v, hvalue, hgives⟩ | hmisread
    · exact .inl ⟨v, hvalue, hgives, taken hvalue⟩
    · exact .inr hmisread
  unfold optionValue
  by_cases hanswer : answer = ""
  · subst hanswer
    exact .inl ⟨present, rfl, .kept⟩
  · rw [if_neg (by simpa using hanswer)]
    by_cases hbox : IsCheckbox option
    · rw [if_pos (isCheckbox_iff.mpr hbox)]
      exact .inl ⟨_, rfl, .checked hanswer hbox⟩
    · rw [if_neg (fun h => hbox (isCheckbox_iff.mp h))]
      by_cases hsome : listed = []
      · subst hsome
        exact .inl ⟨_, rfl, .typed hanswer hbox rfl⟩
      · rw [if_neg (by simpa using hsome)]
        exact chosen_cases hanswer hbox hsome

end

/-! ## All options -/

/-- The options that are asked for, each with the line that is typed for it. -/
def asked (options : List Entries) (lines : List String) : List (Entries × String) :=
  (options.filter HasVariable).zip lines

/-- A line can be taken as the answer to an option with the values `listed`, whose variable is `present`
so far. -/
structure Accepts (option : Entries) (listed : List Entries) (present : Value) (line : String) :
    Prop where
  isKey : (option.fieldD "var").isKey = true
  tells : Tells option listed present
  read : ∀ e, ¬ Misread option listed (Text.trim line) e

/-- Why a line cannot be taken as the answer to an option: its variable can be no key, what is printed
for it cannot be written, or the answer is misread. -/
inductive Refuses (option : Entries) (listed : List Entries) (present : Value) (line : String) :
    Fault → Prop
  | unkeyed (hkey : (option.fieldD "var").isKey = false) :
    Refuses option listed present line .mistyped
  | untold (hkey : (option.fieldD "var").isKey = true) (h : ¬ Tells option listed present) :
    Refuses option listed present line .unwritable
  | misread {e : Fault} (hkey : (option.fieldD "var").isKey = true)
    (htells : Tells option listed present) (h : Misread option listed (Text.trim line) e) :
    Refuses option listed present line e

theorem Refuses.not_accepts {option : Entries} {listed : List Entries} {present : Value}
    {line : String} {e : Fault} (h : Refuses option listed present line e) :
    ¬ Accepts option listed present line := fun haccepts => by
  cases h with
  | unkeyed hkey => exact Bool.false_ne_true (hkey.symm.trans haccepts.isKey)
  | untold _ h => exact h haccepts.tells
  | misread _ _ h => exact haccepts.read _ h

/-- What values become when options are answered one after the other: each trimmed line gives its option
a value, which counts as the present one from then on. -/
inductive Answered : Entries → List (Entries × String) → Entries → Prop
  | nil (values : Entries) : Answered values [] values
  | cons {values decided option : Entries} {listed : List Entries} {line : String} {v : Value}
    {rest : List (Entries × String)} (hlists : Lists option listed)
    (haccepts : Accepts option listed (presentOf values option) line)
    (hgives : Gives option listed (presentOf values option) (Text.trim line) v)
    (hrest : Answered (values.put (option.fieldD "var") v) rest decided) :
    Answered values ((option, line) :: rest) decided

/-- The first answer that is not accepted, after those before it were, is refused with a fault. -/
inductive Refused : Entries → List (Entries × String) → Fault → Prop
  | here {values option : Entries} {listed : List Entries} {line : String} {e : Fault}
    {rest : List (Entries × String)} (hlists : Lists option listed)
    (h : Refuses option listed (presentOf values option) line e) :
    Refused values ((option, line) :: rest) e
  | later {values option : Entries} {listed : List Entries} {line : String} {v : Value} {e : Fault}
    {rest : List (Entries × String)} (hlists : Lists option listed)
    (haccepts : Accepts option listed (presentOf values option) line)
    (hgives : Gives option listed (presentOf values option) (Text.trim line) v)
    (hrest : Refused (values.put (option.fieldD "var") v) rest e) :
    Refused values ((option, line) :: rest) e

/-- Answers are not both accepted and refused. -/
theorem Refused.not_answered {values decided : Entries} {answers : List (Entries × String)} {e : Fault}
    (h : Refused values answers e) : ¬ Answered values answers decided := by
  induction h with
  | here hlists hrefuses =>
    rintro (_ | ⟨hlists', haccepts, -, -⟩)
    cases hlists.unique hlists'
    exact hrefuses.not_accepts haccepts
  | later hlists _ hgives _ ih =>
    rintro (_ | ⟨hlists', -, hgives', hrest⟩)
    cases hlists.unique hlists'
    cases hgives.unique hgives'
    exact ih hrest

/-- What no option names stays as it is. -/
theorem Answered.get?_eq {values decided : Entries} {answers : List (Entries × String)}
    (h : Answered values answers decided) {k : Value} (hk : k.isKey)
    (hother : ∀ p ∈ answers, k.same (p.1.fieldD "var") = false) :
    decided.get? k = values.get? k := by
  induction h with
  | nil => rfl
  | @cons values _ option _ _ v _ _ _ _ _ ih =>
    obtain ⟨hfirst, hrest⟩ := List.forall_mem_cons.mp hother
    rw [ih hrest, Entries.get?_put hk, if_neg (by rw [hfirst]; exact Bool.false_ne_true)]

theorem ask_of_line (line q default : String) (rest : List (Option String)) (percent : Int) (n : Nat) :
    ask false q default n ⟨some line :: rest, percent⟩ =
      ⟨.returned (Text.trim line), [.asked q], ⟨rest, percent⟩⟩ := rfl

/-- One option is set to what the next line gives it, or the line is refused and the question ends. -/
theorem configureOne_cases {option : Entries} {listed : List Entries}
    (hvar : HasVariable option = true) (hlists : Lists option listed) (values : Entries)
    (line : String) (rest : List (Option String)) (percent : Int) (n : Nat) :
    (∃ v es, Accepts option listed (presentOf values option) line ∧
      Gives option listed (presentOf values option) (Text.trim line) v ∧
      configureOne false values (.mapping option) n ⟨some line :: rest, percent⟩ =
        ⟨.returned (values.put (option.fieldD "var") v), es, ⟨rest, percent⟩⟩) ∨
    ∃ e es t', Refuses option listed (presentOf values option) line e ∧
      configureOne false values (.mapping option) n ⟨some line :: rest, percent⟩ =
        ⟨.raised e, es, t'⟩ := by
  cases hkey : (option.fieldD "var").isKey with
  | false =>
    rw [configureOne_of_unkeyed hvar hkey]
    exact .inr ⟨_, _, _, .unkeyed hkey, rfl⟩
  | true =>
    by_cases htells : Tells option listed (presentOf values option)
    · obtain ⟨lines, hone⟩ := configureOne_of_named false hvar hkey hlists htells n
        ⟨some line :: rest, percent⟩
      rw [hone, Run.bind_of_returned (ask_of_line line _ _ rest percent n)]
      rcases optionValue_cases option listed (Text.trim line) (presentOf values option) with
        ⟨v, hvalue, hgives, hread⟩ | ⟨e, hvalue, hmisread⟩
      · rw [hvalue]
        exact .inl ⟨v, _, ⟨hkey, htells, hread⟩, hgives, rfl⟩
      · rw [hvalue]
        exact .inr ⟨_, _, _, .misread hkey htells hmisread, rfl⟩
    · obtain ⟨lines, hone⟩ :=
        configureOne_of_untold false hvar hkey hlists htells n ⟨some line :: rest, percent⟩
      exact .inr ⟨_, _, _, .untold hkey htells, hone⟩

theorem asked_cons_of_unnamed {option : Entries} (h : HasVariable option = false)
    (options : List Entries) (lines : List String) :
    asked (option :: options) lines = asked options lines := by
  rw [asked, asked, List.filter_cons_of_neg (by rw [h]; exact Bool.false_ne_true)]

theorem asked_cons_of_named {option : Entries} (h : HasVariable option = true)
    (options : List Entries) (line : String) (lines : List String) :
    asked (option :: options) (line :: lines) = (option, line) :: asked options lines := by
  rw [asked, asked, List.filter_cons_of_pos h, List.zip_cons_cons]

/-- Options are answered by as many lines as there are variables, or a line is refused and the question
ends. -/
theorem configureAll_cases {options : List Entries} {lines : List String}
    (hlisted : ∀ option ∈ options, ∃ listed, Lists option listed)
    (hlines : lines.length = (options.filter HasVariable).length) (values : Entries)
    (rest : List (Option String)) (percent : Int) (n : Nat) :
    (∃ decided es, Answered values (asked options lines) decided ∧
      configureAll false values (options.map .mapping) n ⟨lines.map some ++ rest, percent⟩ =
        ⟨.returned decided, es, ⟨rest, percent⟩⟩) ∨
    ∃ e es t', Refused values (asked options lines) e ∧
      configureAll false values (options.map .mapping) n ⟨lines.map some ++ rest, percent⟩ =
        ⟨.raised e, es, t'⟩ := by
  induction options generalizing lines values with
  | nil =>
    obtain rfl : lines = [] := List.length_eq_zero_iff.mp hlines
    exact .inl ⟨values, [], .nil values, rfl⟩
  | cons option options ih =>
    obtain ⟨⟨listed, hlists⟩, hlisted⟩ := List.forall_mem_cons.mp hlisted
    have hstep : configureAll false values ((option :: options).map .mapping) =
        configureOne false values (.mapping option) >>= fun values =>
          configureAll false values (options.map .mapping) := rfl
    rw [hstep]
    cases hvar : HasVariable option with
    | false =>
      rw [configureOne_of_unnamed hvar, asked_cons_of_unnamed hvar]
      rw [List.filter_cons_of_neg (by rw [hvar]; exact Bool.false_ne_true)] at hlines
      exact ih hlisted hlines values
    | true =>
      rw [List.filter_cons_of_pos hvar] at hlines
      cases lines with
      | nil => cases hlines
      | cons line lines =>
        rw [asked_cons_of_named hvar, List.map_cons, List.cons_append]
        rcases configureOne_cases hvar hlists values line (lines.map some ++ rest) percent n with
          ⟨v, es, haccepts, hgives, hone⟩ | ⟨e, es, t', hrefuses, hone⟩
        · rw [Run.bind_of_returned hone]
          rcases ih hlisted (Nat.succ.inj hlines) (values.put (option.fieldD "var") v) with
            ⟨decided, es', hanswered, hrest⟩ | ⟨e, es', t', hrefused, hrest⟩
          · refine .inl ⟨decided, es ++ es', .cons hlists haccepts hgives hanswered, ?_⟩
            rw [hrest]
            rfl
          · refine .inr ⟨e, es ++ es', t', .later hlists haccepts hgives hrefused, ?_⟩
            rw [hrest]
            rfl
        · refine .inr ⟨e, es, t', .here hlists hrefuses, ?_⟩
          rw [Run.bind_apply, hone]

/-! ## The question -/

/-- The answer to the question how to set options goes on with the values that the lines give to the
variables, one line for each of them, and leaves what no option names; or else a line is refused as the
answer to its option, and then there is no answer to the question. -/
theorem decide_configure {r : PromptRequest} {options : List Entries} {values : Entries}
    {lines : List String} (hprompt : r.prompt = .configure) (hpresentable : Presentable r)
    (hoptions : (r.data.fieldD "options").listOrEmpty = .ok (options.map .mapping))
    (hlisted : ∀ option ∈ options, ∃ listed, Lists option listed)
    (hvalues : ((r.data.fieldD "values").orElse (.mapping [])).asMapping = .ok values)
    (hlines : lines.length = (options.filter HasVariable).length) (rest : List (Option String))
    (percent : Int) (n : Nat) :
    (∃ (decided : Entries) (es : _),
      decide false r n ⟨lines.map some ++ rest, percent⟩ =
        ⟨.returned { choice := .continue, value := .mapping decided }, es, ⟨rest, percent⟩⟩ ∧
      Answered values (asked options lines) decided ∧
      ∀ k, k.isKey → (∀ option ∈ options, HasVariable option = true →
        k.same (option.fieldD "var") = false) → decided.get? k = values.get? k) ∨
    ∃ e es t', decide false r n ⟨lines.map some ++ rest, percent⟩ = ⟨.raised e, es, t'⟩ ∧
      Refused values (asked options lines) e ∧
      ∀ decided, ¬ Answered values (asked options lines) decided := by
  obtain ⟨shown, hdecide⟩ := decide_of_configure hprompt hpresentable hoptions hvalues false n
    ⟨lines.map some ++ rest, percent⟩
  rw [hdecide]
  rcases configureAll_cases hlisted hlines values rest percent n with
    ⟨decided, es, hanswered, hdone⟩ | ⟨e, es, t', hrefused, hdone⟩
  · refine .inl ⟨decided, shown.map .printed ++ es, ?_, hanswered,
      fun k hk hother => hanswered.get?_eq hk ?_⟩
    · rw [Run.bind_pure_apply, hdone]
      rfl
    · intro p hp
      obtain ⟨hmem, hvar⟩ := List.mem_filter.mp (List.of_mem_zip hp).1
      exact hother p.1 hmem hvar
  · refine .inr ⟨e, shown.map .printed ++ es, t', ?_, hrefused, fun _ => hrefused.not_answered⟩
    rw [Run.bind_pure_apply, hdone]
    rfl

/-- Two options, of which the first one lists two values and the second one is a box. -/
def channelOptions : List Entries := [
  [(.str "var", .str "channel"), (.str "values", .list [
    .ofFields [("value", .str "stable")], .ofFields [("value", .str "devel")]])],
  [(.str "var", .str "wipe"), (.str "type", .str "checkbox")]]

/-- The question how to set them, where the box is checked so far and something else is set too. -/
def channelQuestion : PromptRequest where
  prompt := .configure
  data := [
    (.str "options", .list (channelOptions.map .mapping)),
    (.str "values", .ofFields [("wipe", .bool true), ("serial", .str "a1")])]

theorem channel_configured :
    ∃ (decided : Entries) (es : _),
      decide false channelQuestion 0 ⟨[some " 1 ", some "no", none], -1⟩ =
          ⟨.returned { choice := .continue, value := .mapping decided }, es, ⟨[none], -1⟩⟩ ∧
        Answered [(.str "wipe", .bool true), (.str "serial", .str "a1")]
          (asked channelOptions [" 1 ", "no"]) decided ∧
        ∀ k, k.isKey → (∀ option ∈ channelOptions, HasVariable option = true →
            k.same (option.fieldD "var") = false) →
          decided.get? k =
            Entries.get? k [(.str "wipe", .bool true), (.str "serial", .str "a1")] := by
  have hlisted : ∀ option ∈ channelOptions, ∃ listed, Lists option listed := by
    simp only [channelOptions, List.forall_mem_cons, List.not_mem_nil, false_imp_iff, implies_true,
      and_true]
    exact ⟨⟨[[(.str "value", .str "stable")], [(.str "value", .str "devel")]], by cbv⟩, [], by cbv⟩
  have hpresentable : Presentable channelQuestion := by
    refine ⟨fun h => (by cases h), ?_, [], [], by cbv, by cbv, by simp⟩
    simp only [List.forall_mem_cons, List.not_mem_nil, false_imp_iff, implies_true, and_true]
    exact ⟨by cbv, by cbv⟩
  have hreturned : (decide false channelQuestion 0 ⟨[some " 1 ", some "no", none], -1⟩).ending =
      .returned { value := .ofFields [("wipe", .bool false), ("serial", .str "a1"),
        ("channel", .str "devel")] } := by cbv
  refine (@decide_configure channelQuestion channelOptions
    [(.str "wipe", .bool true), (.str "serial", .str "a1")] [" 1 ", "no"] rfl
    hpresentable (by cbv) hlisted (by cbv) (by cbv) [none] (-1) 0).resolve_right ?_
  rintro ⟨e, es, t', hraised, -⟩
  cases hreturned.symm.trans (congrArg Trail.ending hraised)

set_option maxRecDepth 4096 in
/-- A superscript is taken for a position, but it is no number, and the question ends. -/
theorem superscript_misread :
    (decide false channelQuestion 0 ⟨[some "²", some "no"], -1⟩).ending = .raised .notNumber := by
  cbv

end Console

end Reflash
