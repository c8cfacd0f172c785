import Reflash.Console
import Reflash.Proofs.Ensures

set_option autoImplicit false

/-! # How options are asked for

What a question is about is printed before anything is asked (`Console.describe_prints`). For an option
that names a variable the listed values are printed too, and then there is one answer
(`Console.configureOne_of_named`), if all of that can be written (`Console.Tells`); an option without a
variable is passed over. Nothing that is only printed (`Console.Prints`) changes what is still to be
read. -/

namespace Reflash

namespace Console

variable {α β : Type}

/-! ## Printing -/

/-- A run prints lines, does nothing else, and ends like this. -/
def Prints (d : Dialogue α) (o : Ending α) : Prop :=
  ∀ n t, ∃ lines : List String, d n t = ⟨o, lines.map .printed, t⟩

namespace Prints

theorem pure (a : α) : Prints (Pure.pure a) (.returned a) := fun _ _ => ⟨[], rfl⟩

theorem raise (e : Fault) : Prints (Run.raise e : Dialogue α) (.raised e) := fun _ _ => ⟨[], rfl⟩

theorem print (line : String) : Prints (Console.print line) (.returned ()) :=
  fun _ _ => ⟨[line], rfl⟩

theorem ofFallible {x : Fallible α} {a : α} (h : x = .ok a) : Prints (liftM x) (.returned a) := by
  rw [h]
  exact pure a

theorem bind {d : Dialogue α} {a : α} {next : α → Dialogue β} {o : Ending β}
    (hd : Prints d (.returned a)) (hnext : Prints (next a) o) : Prints (d >>= next) o := by
  intro n t
  obtain ⟨lines, hlines⟩ := hd n t
  obtain ⟨lines', hlines'⟩ := hnext n t
  refine ⟨lines ++ lines', ?_⟩
  rw [Run.bind_of_returned hlines, hlines', List.map_append]
  rfl

theorem bind_of_raised {d : Dialogue α} {e : Fault} (hd : Prints d (.raised e))
    (next : α → Dialogue β) : Prints (d >>= next) (.raised e) := by
  intro n t
  obtain ⟨lines, hlines⟩ := hd n t
  refine ⟨lines, ?_⟩
  rw [Run.bind_apply, hlines]

theorem each {f : α → Dialogue Unit} {xs : List α} (h : ∀ x ∈ xs, Prints (f x) (.returned ())) :
    Prints (Run.each f xs) (.returned ()) := by
  induction xs with
  | nil => exact pure ()
  | cons x xs ih =>
    obtain ⟨hx, hxs⟩ := List.forall_mem_cons.mp h
    exact hx.bind (ih hxs)

theorem ite {c : Prop} [Decidable c] {d d' : Dialogue α} {o : Ending α} (h : Prints d o)
    (h' : Prints d' o) : Prints (if c then d else d') o := by
  split
  · exact h
  · exact h'

/-- A line that is printed only in some cases. -/
theorem headed {c : Prop} [Decidable c] {line : String} {next : Unit → Dialogue α} {o : Ending α}
    (h : Prints (next ()) o) : Prints (if c then Console.print line >>= next else next ()) o :=
  ite ((print line).bind h) h

end Prints

/-! ## What a question is about -/

/-- What a question is about can be shown: its texts can be written, and the instructions that it
names are known. -/
structure Presentable (r : PromptRequest) : Prop where
  terms : r.prompt = .eula → (r.data.fieldD "eula").writable = true
  titles : ∀ key ∈ ["title", "description"], (r.data.fieldD key).writable = true
  instructions : ∃ unlock prerequisites, (r.data.fieldD "unlock").listOrEmpty = .ok unlock ∧
    (r.data.fieldD "prerequisites").listOrEmpty = .ok prerequisites ∧
    ∀ name ∈ unlock ++ prerequisites, ∃ line,
      instructionLine ((r.data.fieldD "user_actions").orElse (.mapping [])) name = .ok line

theorem describe_prints {r : PromptRequest} (h : Presentable r) : Prints (describe r) (.returned ()) := by
  obtain ⟨hterms, htitles, unlock, prerequisites, hunlock, hprerequisites, hlines⟩ := h
  unfold describe
  -- The printing is in stages, each of which ends in the next one; they are shown from the last one on.
  extract_lets known cause afterTerms afterLock afterHeadline
  have hcause : Prints (cause ()) (.returned ()) := by
    unfold cause
    cases r.cause with
    | none => exact .pure ()
    | some cause => exact .ite (.print _) (.pure ())
  have hafterTerms : Prints (afterTerms ()) (.returned ()) := by
    refine (Prints.each fun key hkey => ?_).bind ?_
    · rw [Value.shown_of_writable (htitles key hkey)]
      exact .ite (.print _) (.pure ())
    refine (Prints.ofFallible hunlock).bind ((Prints.ofFallible hprerequisites).bind ?_)
    refine (Prints.each fun name hname => ?_).bind ?_
    · obtain ⟨line, hline⟩ := hlines name hname
      exact (Prints.ofFallible hline).bind (.print line)
    · cases r.action with
      | none => exact hcause
      | some action => exact .headed hcause
  have hafterLock : Prints (afterLock ()) (.returned ()) := by
    unfold afterLock
    split
    · next hprompt =>
      rw [Value.shown_of_writable (hterms hprompt)]
      exact (Prints.print _).bind hafterTerms
    · exact hafterTerms
  have hafterHeadline : Prints (afterHeadline ()) (.returned ()) := .headed hafterLock
  cases headline? r.prompt with
  | none => exact hafterHeadline
  | some line => exact (Prints.print _).bind hafterHeadline

/-! ## One option -/

/-- The values that an option lists, all of them mappings; there may be none. -/
def Lists (option : Entries) (listed : List Entries) : Prop :=
  (option.fieldD "values").listOrEmpty = .ok (listed.map .mapping)

theorem Lists.unique {option : Entries} {listed listed' : List Entries} (h : Lists option listed)
    (h' : Lists option listed') : listed = listed' := by
  have heq : listed.map Value.mapping = listed'.map .mapping := Except.ok.inj (h.symm.trans h')
  exact (List.map_inj_right fun _ _ => Value.mapping.inj).mp heq

/-- Whether an option names a variable, so that it is asked for. -/
def HasVariable (option : Entries) : Bool :=
  (option.fieldD "var").truth

/-- What an option is called. -/
def nameOf (option : Entries) : Value :=
  (option.fieldD "name").orElse (option.fieldD "var")

/-- What a listed value is called. -/
def labelOf (es : Entries) : Value :=
  (es.field? "label").getD (es.fieldD "value")

/-- How an option is asked for, given the present value of its variable. -/
def question (option : Entries) (present : Value) : String :=
  (nameOf option).text ++ " [" ++ present.text ++ "]: "

/-- What the variable of an option is set to. -/
def presentOf (values option : Entries) : Value :=
  (values.get? (option.fieldD "var")).getD .null

/-- What is printed when an option is asked for can be written. -/
structure Tells (option : Entries) (listed : List Entries) (present : Value) : Prop where
  labels : ∀ es ∈ listed, (labelOf es).writable = true
  name : (nameOf option).writable = true
  present : present.writable = true

theorem printValues_prints {listed : List Entries} (h : ∀ es ∈ listed, (labelOf es).writable = true)
    (i : Nat) : Prints (printValues i (listed.map .mapping)) (.returned ()) := by
  induction listed generalizing i with
  | nil => exact .pure ()
  | cons es listed ih =>
    obtain ⟨hes, hrest⟩ := List.forall_mem_cons.mp h
    have hline : valueLine i (.mapping es) = .ok ("   [" ++ toString i ++ "] " ++ (labelOf es).text) :=
      congrArg (Except.map _) (Value.shown_of_writable hes)
    exact (Prints.ofFallible hline).bind ((Prints.print _).bind (ih hrest (i + 1)))

theorem printValues_untold {listed : List Entries} (h : ¬ ∀ es ∈ listed, (labelOf es).writable = true)
    (i : Nat) : Prints (printValues i (listed.map .mapping)) (.raised .unwritable) := by
  induction listed generalizing i with
  | nil => exact absurd (by simp) h
  | cons es listed ih =>
    cases hes : (labelOf es).writable with
    | false =>
      have hline : valueLine i (.mapping es) = .error .unwritable :=
        congrArg (Except.map _) (Value.shown_of_unwritable hes)
      rw [List.map_cons, printValues, hline]
      exact (Prints.raise _).bind_of_raised _
    | true =>
      have hline : valueLine i (.mapping es) =
          .ok ("   [" ++ toString i ++ "] " ++ (labelOf es).text) :=
        congrArg (Except.map _) (Value.shown_of_writable hes)
      have hrest : ¬ ∀ es ∈ listed, (labelOf es).writable = true := fun hrest =>
        h (List.forall_mem_cons.mpr ⟨hes, hrest⟩)
      exact (Prints.ofFallible hline).bind ((Prints.print _).bind (ih hrest (i + 1)))

section

variable {option : Entries} {assumeYes : Bool} {values : Entries}

theorem configureOne_of_unnamed (h : HasVariable option = false) :
    configureOne assumeYes values (.mapping option) = pure values := by
  unfold HasVariable at h
  simp [configureOne, h]

theorem configureOne_of_unkeyed (h : HasVariable option = true)
    (hkey : (option.fieldD "var").isKey = false) :
    configureOne assumeYes values (.mapping option) = Run.raise .mistyped := by
  unfold HasVariable at h
  simp [configureOne, h, hkey, Run.raise_bind]

/-- An option that names a variable is set to what the answer says, after its values were printed. -/
theorem configureOne_of_named {listed : List Entries} (assumeYes : Bool)
    (h : HasVariable option = true) (hkey : (option.fieldD "var").isKey = true)
    (hlists : Lists option listed) (htells : Tells option listed (presentOf values option)) (n : Nat)
    (t : Terminal) :
    ∃ lines : List String, configureOne assumeYes values (.mapping option) n t =
      ((do
        let answer ← ask assumeYes (question option (presentOf values option))
        let v ← optionValue option (listed.map .mapping) answer (presentOf values option)
        return values.put (option.fieldD "var") v : Dialogue Entries) n t).after
          (lines.map .printed) := by
  unfold HasVariable at h
  obtain ⟨lines, hlines⟩ := printValues_prints htells.labels 0 n t
  refine ⟨lines, ?_⟩
  have hname : (nameOf option).shown = .ok (nameOf option).text := Value.shown_of_writable htells.name
  have hpresent := Value.shown_of_writable htells.present
  rw [nameOf] at hname
  rw [presentOf] at hpresent
  simp only [configureOne, h, hkey, Bool.not_true, Bool.false_eq_true, if_false]
  rw [show (option.fieldD "values").listOrEmpty = .ok (listed.map .mapping) from hlists,
    Run.ofFallible_ok_bind, Run.bind_of_returned hlines, hname, Run.ofFallible_ok_bind,
    hpresent, Run.ofFallible_ok_bind]
  rfl

/-- If something cannot be written that is to be printed, the option is not asked for. -/
theorem configureOne_of_untold {listed : List Entries} (assumeYes : Bool)
    (h : HasVariable option = true) (hkey : (option.fieldD "var").isKey = true)
    (hlists : Lists option listed)
    (huntold : ¬ Tells option listed (presentOf values option)) :
    Prints (configureOne assumeYes values (.mapping option)) (.raised .unwritable) := by
  unfold HasVariable at h
  simp only [configureOne, h, hkey, Bool.not_true, Bool.false_eq_true, if_false]
  rw [show (option.fieldD "values").listOrEmpty = .ok (listed.map .mapping) from hlists,
    Run.ofFallible_ok_bind]
  by_cases hlabels : ∀ es ∈ listed, (labelOf es).writable = true
  · refine (printValues_prints hlabels 0).bind ?_
    cases hname : (nameOf option).writable with
    | false =>
      have hshown := Value.shown_of_unwritable hname
      rw [nameOf] at hshown
      rw [hshown]
      exact (Prints.raise _).bind_of_raised _
    | true =>
      have hshown := Value.shown_of_writable hname
      rw [nameOf] at hshown
      have hpresent : (presentOf values option).writable = false :=
        Bool.eq_false_iff.mpr fun hpresent => huntold ⟨hlabels, hname, hpresent⟩
      have hunshown := Value.shown_of_unwritable hpresent
      rw [presentOf] at hunshown
      rw [hshown, Run.ofFallible_ok_bind, hunshown]
      exact (Prints.raise _).bind_of_raised _
  · exact (printValues_untold hlabels 0).bind_of_raised _

end

/-! ## All options -/

/-- The question how to set options asks for them one after the other and goes on with what they are set
to, after what it is about was printed. -/
theorem decide_of_configure {r : PromptRequest} {options : List Value} {values : Entries}
    (hprompt : r.prompt = .configure) (hpresentable : Presentable r)
    (hoptions : (r.data.fieldD "options").listOrEmpty = .ok options)
    (hvalues : ((r.data.fieldD "values").orElse (.mapping [])).asMapping = .ok values)
    (assumeYes : Bool) (n : Nat) (t : Terminal) :
    ∃ lines : List String, decide assumeYes r n t =
      ((do return { value := .mapping (← configureAll assumeYes values options) } :
        Dialogue Decision) n t).after (lines.map .printed) := by
  obtain ⟨lines, hlines⟩ := describe_prints hpresentable n t
  refine ⟨lines, ?_⟩
  rw [decide, Run.bind_of_returned hlines, hprompt]
  simp only [configure, hvalues, hoptions]
  rfl

end Console

end Reflash
