import Mathlib.Data.List.Infix
import Reflash.Proofs.Ensures
import Reflash.Proofs.Splitting
import Reflash.Tool.CommandLine

set_option autoImplicit false

/-! # Phrases in the output of tools

A phrase is looked for in the small letters of a text. Small letters are made character by character,
but for the small sigma, which has two forms, and no phrase has a sigma in it. So a phrase is in a text
that is put together if it is in a part of it (`Text.says_middle`), neither blanks at the ends nor the
case of ASCII letters matter (`Text.Restyles.says_iff`), and no phrase comes into being where two texts are
put one below the other (`CommandResult.says_output`).

All of this carries over to the kinds of failure that the phrases stand for: what a command printed is
judged as the more decisive of its two streams is (`CommandLineTool.exec_diagnoses`). -/

namespace Reflash

variable {σ : Type}

namespace Text

/-! ## Neighbouring characters -/

section

variable {needle xs ys : List Char} {c : Char}

theorem occursIn_iff {cs : List Char} : occursIn needle cs = true ↔ needle <:+: cs := by
  induction cs with
  | nil => simp [occursIn, List.infix_nil]
  | cons c cs ih =>
    rw [occursIn, Bool.or_eq_true, ih, List.isPrefixOf_iff_prefix, List.infix_cons_iff]

/-- What does not start in the first part is in the second one. -/
theorem infix_of_append_right (hfirst : needle.head? = some c) (hxs : c ∉ xs)
    (h : needle <:+: xs ++ ys) : needle <:+: ys := by
  induction xs with
  | nil => exact h
  | cons x xs ih =>
    rw [List.mem_cons, not_or] at hxs
    rcases List.infix_cons_iff.mp h with ⟨rest, hrest⟩ | h
    · cases needle with
      | nil => cases hfirst
      | cons d needle =>
        cases hfirst
        exact absurd (List.cons.inj hrest).1 hxs.1
    · exact ih hxs.2 h

/-- What does not end in the second part is in the first one. -/
theorem infix_of_append_left (hlast : needle.getLast? = some c) (hys : c ∉ ys)
    (h : needle <:+: xs ++ ys) : needle <:+: xs := by
  rw [← List.reverse_infix, List.reverse_append] at h
  rw [← List.reverse_infix]
  exact infix_of_append_right (List.head?_reverse.trans hlast) (by simpa using hys) h

theorem prefix_of_separated (hsep : c ∉ needle) (h : needle <+: xs ++ c :: ys) : needle <+: xs := by
  induction xs generalizing needle with
  | nil =>
    rcases List.prefix_cons_iff.mp h with rfl | ⟨rest, rfl, -⟩
    · exact List.nil_prefix
    · exact absurd (List.mem_cons_self ..) hsep
  | cons x xs ih =>
    rcases List.prefix_cons_iff.mp h with rfl | ⟨rest, rfl, hrest⟩
    · exact List.nil_prefix
    · exact (List.prefix_cons_inj x).mpr (ih (List.not_mem_of_not_mem_cons hsep) hrest)

/-- What does not have the separator in it stands on one side of it. -/
theorem infix_of_separated (hsep : c ∉ needle) (h : needle <:+: xs ++ c :: ys) :
    needle <:+: xs ∨ needle <:+: ys := by
  induction xs with
  | nil =>
    rcases List.infix_cons_iff.mp h with hprefix | h
    · have hnil : needle <+: [] := prefix_of_separated hsep hprefix
      exact .inl hnil.isInfix
    · exact .inr h
  | cons x xs ih =>
    rcases List.infix_cons_iff.mp h with hprefix | h
    · have hcons : needle <+: x :: xs := prefix_of_separated hsep hprefix
      exact .inl hcons.isInfix
    · exact (ih h).imp List.infix_cons id

end

/-! ## Small letters with one sigma -/

/-- The small sigma in one form, whether it ends a word or not. -/
def oneSigma (c : Char) : Char :=
  if c = 'ς' then 'σ' else c

/-- The small letters of one character, the sigma in one form. -/
def plainForm (c : Char) : List Char :=
  (lowerList [] [c]).map oneSigma

/-- But for the forms of the sigma, each character has small letters of its own. -/
theorem lowerList_map_oneSigma (before cs : List Char) :
    (lowerList before cs).map oneSigma = cs.flatMap plainForm := by
  induction cs generalizing before with
  | nil => rfl
  | cons c cs ih =>
    rw [List.flatMap_cons, ← ih (c :: before), plainForm, lowerList, lowerList]
    -- Only the capital sigma looks at its neighbours, and either of its forms becomes the one.
    split
    · split <;> simp [lowerList, oneSigma]
    · split <;> simp [lowerList]

theorem infix_map_oneSigma {needle cs : List Char} (hσ : 'σ' ∉ needle) (hς : 'ς' ∉ needle) :
    needle <:+: cs.map oneSigma ↔ needle <:+: cs := by
  rw [List.infix_map_iff]
  constructor
  · rintro ⟨part, hpart, rfl⟩
    have hself : part.map oneSigma = part := by
      refine (List.map_congr_left fun c hc => ?_).trans (List.map_id _)
      refine if_neg fun hfinal => hσ (List.mem_map.mpr ⟨c, hc, ?_⟩)
      rw [hfinal]
      rfl
    rwa [hself]
  · intro h
    refine ⟨needle, h, ((List.map_congr_left fun c hc => ?_).trans (List.map_id _)).symm⟩
    exact if_neg fun (hfinal : c = 'ς') => hς (hfinal ▸ hc)

theorem plainForm_of_isBlank {c : Char} (h : isBlank c = true) : plainForm c = [c] := by
  -- All the blanks there are, so their small letters can be looked up.
  let codes := [9, 10, 11, 12, 13, 28, 29, 30, 31, 32, 133, 160, 5760, 8192, 8193, 8194, 8195, 8196,
    8197, 8198, 8199, 8200, 8201, 8202, 8232, 8233, 8239, 8287, 12288]
  have hcode : c.toNat ∈ codes := by
    simp only [isBlank, Bool.or_eq_true, Bool.and_eq_true, decide_eq_true_eq, beq_iff_eq] at h
    simp only [codes, List.mem_cons, List.not_mem_nil]
    omega
  have hforms : ∀ n ∈ codes, plainForm (Char.ofNat n) = [Char.ofNat n] := by decide +kernel
  simpa [Char.ofNat_toNat] using hforms _ hcode

theorem plainForm_toLower (c : Char) : plainForm c.toLower = plainForm c := by
  by_cases h : 65 ≤ c.toNat ∧ c.toNat ≤ 90
  · have hforms : ∀ n ≤ 90, 65 ≤ n → plainForm (Char.ofNat n).toLower = plainForm (Char.ofNat n) := by
      decide +kernel
    simpa [Char.ofNat_toNat] using hforms _ h.2 h.1
  · have hsmall : ¬(c.val ≥ 'A'.val ∧ c.val ≤ 'Z'.val) := h
    rw [show c.toLower = c from dif_neg hsmall]

theorem flatMap_of_blanks {cs : List Char} (h : ∀ c ∈ cs, isBlank c = true) :
    cs.flatMap plainForm = cs := by
  induction cs with
  | nil => rfl
  | cons c cs ih =>
    rw [List.flatMap_cons, plainForm_of_isBlank (h c (by simp)), ih fun d hd => h d (by simp [hd])]
    rfl

/-! ## Phrases -/

/-- A phrase does not start or end with a blank, is on one line, and has no small sigma in it. -/
structure Phrase (needle : List Char) : Prop where
  first : ∃ c, needle.head? = some c ∧ isBlank c = false
  last : ∃ c, needle.getLast? = some c ∧ isBlank c = false
  line : '\n' ∉ needle
  medial : 'σ' ∉ needle
  final : 'ς' ∉ needle

/-- The phrase is among the small letters of the text. -/
def Says (cs needle : List Char) : Prop :=
  needle <:+: cs.flatMap plainForm

variable {needle : List Char}

theorem contains_lowercase {needle : String} (h : Phrase needle.toList) (s : String) :
    contains (lowercase s) needle = true ↔ Says s.toList needle.toList := by
  rw [contains, occursIn_iff, lowercase, String.toList_ofList, Says, ← lowerList_map_oneSigma [],
    infix_map_oneSigma h.medial h.final]

theorem says_middle (as : List Char) {bs : List Char} (cs : List Char) (h : Says bs needle) :
    Says (as ++ bs ++ cs) needle := by
  rw [Says, List.flatMap_append, List.flatMap_append]
  exact h.trans ((List.suffix_append _ _).isInfix.trans (List.prefix_append _ _).isInfix)

theorem Phrase.says_nil (h : Phrase needle) : ¬Says [] needle := by
  intro hnil
  obtain ⟨c, hc, -⟩ := h.first
  rw [List.infix_nil.mp hnil] at hc
  cases hc

/-- Blanks at the ends add nothing. -/
theorem Phrase.says_padded (h : Phrase needle) {core cs : List Char} (hcs : Padded core cs) :
    Says cs needle ↔ Says core needle := by
  obtain ⟨as, bs, has, hbs, rfl⟩ := hcs
  refine ⟨fun hsays => ?_, says_middle as bs⟩
  rw [Says, List.flatMap_append, List.flatMap_append, flatMap_of_blanks has,
    flatMap_of_blanks hbs] at hsays
  obtain ⟨c, hfirst, hc⟩ := h.first
  obtain ⟨d, hlast, hd⟩ := h.last
  have hends := infix_of_append_left hlast (fun hmem => by simp [hbs d hmem] at hd) hsays
  exact infix_of_append_right hfirst (fun hmem => by simp [has c hmem] at hc) hends

/-- Nothing is said across the end of a line. -/
theorem Phrase.says_lines (h : Phrase needle) (xs ys : List Char) :
    Says (xs ++ '\n' :: ys) needle ↔ Says xs needle ∨ Says ys needle := by
  have hlines : (xs ++ '\n' :: ys).flatMap plainForm =
      xs.flatMap plainForm ++ '\n' :: ys.flatMap plainForm := by
    rw [List.flatMap_append, List.flatMap_cons, plainForm_of_isBlank (by decide)]
    rfl
  constructor
  · intro hsays
    rw [Says, hlines] at hsays
    exact infix_of_separated h.line hsays
  · rintro (hxs | hys)
    · simpa using says_middle [] ('\n' :: ys) hxs
    · simpa using says_middle (xs ++ ['\n']) [] hys

/-! ## Trimming -/

theorem Phrase.says_trim (h : Phrase needle) (s : String) :
    Says (trim s).toList needle ↔ Says s.toList needle := by
  rw [trim, String.toList_ofList, h.says_padded (trimList_padded s.toList)]

/-! ## Other styles of a text -/

/-- Two texts are the same but for the blanks around them and the case of their ASCII letters. -/
def Restyles (s t : String) : Prop :=
  ∃ core core', Padded core s.toList ∧ Padded core' t.toList ∧
    core'.map Char.toLower = core.map Char.toLower

theorem flatMap_plainForm_toLower (cs : List Char) :
    (cs.map Char.toLower).flatMap plainForm = cs.flatMap plainForm := by
  rw [List.flatMap_map]
  simp only [plainForm_toLower]

theorem Restyles.says_iff {s t : String} (h : Restyles s t) (hneedle : Phrase needle) :
    Says t.toList needle ↔ Says s.toList needle := by
  obtain ⟨core, core', hs, ht, hcore⟩ := h
  rw [hneedle.says_padded hs, hneedle.says_padded ht, Says, Says, ← flatMap_plainForm_toLower core',
    hcore, flatMap_plainForm_toLower]

end Text

/-- What a command printed says what one of its streams says. -/
theorem CommandResult.says_output (r : CommandResult) {needle : List Char} (h : Text.Phrase needle) :
    Text.Says r.output.toList needle ↔
      Text.Says r.stdout.toList needle ∨ Text.Says r.stderr.toList needle := by
  rw [← h.says_trim r.stdout, ← h.says_trim r.stderr, CommandResult.output]
  generalize Text.trim r.stdout = out
  generalize Text.trim r.stderr = err
  -- A stream that is empty is left out, and says nothing.
  by_cases hout : out = ""
  · by_cases herr : err = "" <;> simp [hout, herr, h.says_nil]
  · by_cases herr : err = ""
    · simp [hout, herr, h.says_nil]
    · rw [← h.says_lines]
      simp [hout, herr]

namespace Diagnosis

open Text

/-! ## Kinds by their precedence -/

/-- The kinds that a text can be taken for, the most decisive one first. -/
def precedence : List FailureKind :=
  [.killed, .lowBattery, .unlockDisabled, .bootloaderLocked, .unauthorized, .deviceOffline, .noDevice,
    .generic]

/-- The place of a kind among them. -/
def rank (kind : FailureKind) : Nat :=
  precedence.idxOf kind

/-- The more decisive one of two kinds. -/
def moreDecisive (a b : FailureKind) : FailureKind :=
  if rank a ≤ rank b then a else b

/-- The kinds that a table tells apart, and the one for texts that mention none of its phrases. -/
def kinds (table : List (FailureKind × List String)) : List FailureKind :=
  table.map Prod.fst ++ [.generic]

theorem kinds_phrases : kinds phrases = precedence := rfl

theorem firstMentioned_mem (text : String) (table : List (FailureKind × List String)) :
    firstMentioned text table ∈ kinds table := by
  induction table with
  | nil => exact List.mem_singleton_self _
  | cons row rest ih =>
    rw [firstMentioned]
    split
    · exact List.mem_cons_self ..
    · exact List.mem_cons_of_mem _ ih

/-- The place of the first kind that is mentioned is that of the first row with a phrase of the text. -/
theorem idxOf_firstMentioned (text : String) {table : List (FailureKind × List String)}
    (h : (kinds table).Nodup) :
    (kinds table).idxOf (firstMentioned text table) =
      table.findIdx fun row => mentions text row.2 := by
  induction table with
  | nil => rfl
  | cons row rest ih =>
    obtain ⟨hrow, hrest⟩ := List.nodup_cons.mp h
    rw [firstMentioned, List.findIdx_cons]
    cases mentions text row.2 with
    | true => exact List.idxOf_cons_self
    | false =>
      have hne : row.1 ≠ firstMentioned text rest :=
        fun heq => hrow (heq ▸ firstMentioned_mem text rest)
      rw [if_neg Bool.false_ne_true, ← ih hrest]
      exact List.idxOf_cons_ne _ hne

theorem rank_ofText (s : String) :
    rank (ofText s) = phrases.findIdx fun row => mentions (lowercase s) row.2 := by
  rw [rank, ← kinds_phrases]
  exact idxOf_firstMentioned _ (by decide)

/-- The kinds of texts are told apart by their places. -/
theorem ofText_eq_of_rank {s : String} {kind : FailureKind} (h : rank (ofText s) = rank kind) :
    ofText s = kind :=
  (List.idxOf_inj (firstMentioned_mem _ _)).mp h

theorem findIdx_or {α : Type} {xs : List α} {p q r : α → Bool}
    (h : ∀ x ∈ xs, r x = (p x || q x)) : xs.findIdx r = min (xs.findIdx p) (xs.findIdx q) := by
  induction xs with
  | nil => rfl
  | cons x xs ih =>
    obtain ⟨hx, hxs⟩ := List.forall_mem_cons.mp h
    rw [List.findIdx_cons, List.findIdx_cons, List.findIdx_cons, hx, ih hxs]
    cases p x <;> cases q x <;> simp

/-! ## What kinds depend on -/

theorem phrase_of_mem {row : FailureKind × List String} (hrow : row ∈ phrases) {needle : String}
    (hneedle : needle ∈ row.2) : Phrase needle.toList := by
  have hall : ∀ row ∈ phrases, ∀ needle ∈ row.2,
      (needle.toList.head?.any fun c => !isBlank c) = true ∧
      (needle.toList.getLast?.any fun c => !isBlank c) = true ∧
      '\n' ∉ needle.toList ∧ 'σ' ∉ needle.toList ∧ 'ς' ∉ needle.toList := by
    decide +kernel
  obtain ⟨hfirst, hlast, hline, hmedial, hfinal⟩ := hall row hrow needle hneedle
  exact ⟨by simpa [Option.any_eq_true] using hfirst, by simpa [Option.any_eq_true] using hlast, hline,
    hmedial, hfinal⟩

theorem mentions_lowercase {row : FailureKind × List String} (hrow : row ∈ phrases) (s : String) :
    mentions (lowercase s) row.2 = true ↔ ∃ needle ∈ row.2, Says s.toList needle.toList := by
  rw [mentions, List.any_eq_true]
  refine exists_congr fun needle => and_congr_right fun hneedle => ?_
  exact contains_lowercase (phrase_of_mem hrow hneedle) s

/-- A text that says what one of two texts says is as decisive as the more decisive of the two. -/
theorem rank_ofText_eq_min {s a b : String} (h : ∀ needle, Phrase needle →
    (Says s.toList needle ↔ Says a.toList needle ∨ Says b.toList needle)) :
    rank (ofText s) = min (rank (ofText a)) (rank (ofText b)) := by
  rw [rank_ofText, rank_ofText, rank_ofText]
  refine findIdx_or fun row hrow => ?_
  rw [Bool.eq_iff_iff, Bool.or_eq_true, mentions_lowercase hrow, mentions_lowercase hrow,
    mentions_lowercase hrow, ← exists_or]
  refine exists_congr fun needle => ?_
  rw [← and_or_left]
  exact and_congr_right fun hneedle => h _ (phrase_of_mem hrow hneedle)

/-- A text that says more is at least as decisive. -/
theorem rank_ofText_le {a s : String}
    (h : ∀ needle, Phrase needle → Says a.toList needle → Says s.toList needle) :
    rank (ofText s) ≤ rank (ofText a) := by
  have hmin := rank_ofText_eq_min (s := s) (a := a) (b := s) fun needle hneedle =>
    (or_iff_right_of_imp (h needle hneedle)).symm
  rw [hmin]
  exact min_le_left _ _

theorem ofText_of_restyles {s t : String} (h : Restyles s t) : ofText t = ofText s := by
  refine ofText_eq_of_rank (le_antisymm ?_ ?_)
  · exact rank_ofText_le fun needle hneedle => (h.says_iff hneedle).mpr
  · exact rank_ofText_le fun needle hneedle => (h.says_iff hneedle).mp

theorem ofText_output (r : CommandResult) :
    ofText r.output = moreDecisive (ofText r.stdout) (ofText r.stderr) := by
  refine ofText_eq_of_rank ((rank_ofText_eq_min fun needle => r.says_output).trans ?_)
  unfold moreDecisive
  split
  · next hle => exact min_eq_left hle
  · next hle => exact min_eq_right (le_of_not_ge hle)

end Diagnosis

namespace CommandLineTool

open Diagnosis Run Text

/-- A command that exits with a positive code fails with the more decisive kind of what its two streams
report, whatever blanks are around them and in whatever case their ASCII letters are. A text is never
less decisive than a part of it. -/
theorem exec_diagnoses (t : CommandLineTool) (runner : Runner σ) {args : List Value}
    {words : List String} (hwords : Command.texts args = .ok words) {n : Nat} {w w' : σ}
    {result : CommandResult} {es : List Signal}
    (hrun : t.poll runner args n w = ⟨.returned result, es, w'⟩) (hcode : 0 < result.code) :
    (∃ message, t.exec runner args n w =
      ⟨.raised (.failure (moreDecisive (ofText result.stdout) (ofText result.stderr)) message), es,
        w'⟩) ∧
    (∀ other : CommandResult, 0 < other.code → Restyles result.stdout other.stdout →
      Restyles result.stderr other.stderr →
        failureKind other = moreDecisive (ofText result.stdout) (ofText result.stderr)) ∧
    ∀ a b c : String, rank (ofText (a ++ b ++ c)) ≤ rank (ofText b) := by
  have hkind {r : CommandResult} (hr : 0 < r.code) :
      failureKind r = moreDecisive (ofText r.stdout) (ofText r.stderr) :=
    (if_neg (by omega)).trans (ofText_output r)
  refine ⟨?_, fun other hother hout herr => ?_, fun a b c => ?_⟩
  · rw [← hkind hcode, exec, bind_of_returned hrun, if_neg (by omega), hwords]
    exact ⟨_, congrArg (Trail.mk _ · _) (List.append_nil es)⟩
  · rw [hkind hother, ofText_of_restyles hout, ofText_of_restyles herr]
  · refine rank_ofText_le fun needle _ hsays => ?_
    rw [String.toList_append, String.toList_append]
    exact says_middle _ _ hsays

/-- One stream says that the connection is closed and the other one that the battery is low, which is the
more decisive of the two, also where it is shouted. -/
theorem low_battery_decides :
    let result : CommandResult :=
      { argv := [], code := 1, stdout := "error: closed\n", stderr := "FAILED (Low battery)" }
    let shouted : CommandResult :=
      { argv := [], code := 2, stdout := "ERROR: CLOSED", stderr := "\tfailed (LOW BATTERY)\n" }
    let runner : Runner Unit := fun _ _ w => ⟨.returned result, [], w⟩
    (∃ message, (usual .fastboot).exec runner [.str "reboot"] 0 () =
      ⟨.raised (.failure .lowBattery message), [], ()⟩) ∧ failureKind shouted = .lowBattery := by
  intro result shouted runner
  have hkind : moreDecisive (ofText result.stdout) (ofText result.stderr) = .lowBattery := by
    decide +kernel
  have bare (core : List Char) : Padded core core := ⟨[], [], by simp, by simp, by simp⟩
  have hout : Restyles result.stdout shouted.stdout :=
    ⟨"error: closed".toList, "ERROR: CLOSED".toList,
      ⟨[], ['\n'], by simp, List.forall_mem_singleton.mpr rfl, by decide +kernel⟩, bare _,
      by decide +kernel⟩
  have herr : Restyles result.stderr shouted.stderr :=
    ⟨"FAILED (Low battery)".toList, "failed (LOW BATTERY)".toList, bare _,
      ⟨['\t'], ['\n'], List.forall_mem_singleton.mpr rfl, List.forall_mem_singleton.mpr rfl,
        by decide +kernel⟩, by decide +kernel⟩
  have hwords : Command.texts [.str "reboot"] = .ok ["reboot"] := rfl
  obtain ⟨hfails, hothers, -⟩ :=
    exec_diagnoses (usual .fastboot) runner hwords (n := 0) (w := ()) rfl (by decide)
  rw [hkind] at hfails
  exact ⟨hfails, (hothers shouted (by decide) hout herr).trans hkind⟩

end CommandLineTool

end Reflash
