import Reflash.CommandLine.Program
import Reflash.Proofs.Asking
import Reflash.Proofs.Configure
import Reflash.Proofs.Depot
import Reflash.Proofs.Writing

set_option autoImplicit false

/-! # Accepting the defaults

A console that accepts the defaults answers the question how to set options without reading a line: each
option keeps what its variable is set to, and a variable without a value becomes null
(`Console.withPresent`). So the settings of an installation are what was set in the session, over the last
default of each variable, over null (`Installer.KeepsDefaults`), in whatever order the options are listed. -/

namespace Reflash

open Run

variable {α β : Type}

theorem Entries.put_keys {es : Entries} {key : Value} (h : ∀ p ∈ es, p.1.isKey) (hkey : key.isKey)
    (v : Value) : ∀ p ∈ es.put key v, p.1.isKey := by
  intro p hp
  rcases key_of_mem_put hp with heq | ⟨e, he, heq⟩
  · exact heq ▸ hkey
  · exact heq ▸ h e he

theorem Entries.putAll_keys {es updates : Entries} (h : ∀ p ∈ es, p.1.isKey)
    (hupdates : ∀ p ∈ updates, p.1.isKey) : ∀ p ∈ es.putAll updates, p.1.isKey := by
  intro p hp
  rcases key_of_mem_putAll hp with ⟨e, he, heq⟩ | ⟨e, he, heq⟩
  · exact heq ▸ h e he
  · exact heq ▸ hupdates e he

/-! ## At the console -/

namespace Console

/-- The values after an option is answered with nothing. -/
def withPresent (values option : Entries) : Entries :=
  if HasVariable option then
    values.put (option.fieldD "var") ((values.get? (option.fieldD "var")).getD .null)
  else values

/-- Why an option is not asked for: its variable can be no key, or what is printed for it cannot be
written. -/
inductive Balks (values option : Entries) : Fault → Prop
  | unkeyed (hvar : HasVariable option = true) (hkey : (option.fieldD "var").isKey = false) :
    Balks values option .mistyped
  | untold {listed : List Entries} (hvar : HasVariable option = true)
    (hkey : (option.fieldD "var").isKey = true) (hlists : Lists option listed)
    (h : ¬ Tells option listed (presentOf values option)) : Balks values option .unwritable

/-- An option that names a variable can be asked for. -/
def Askable (values option : Entries) : Prop :=
  ∀ e, ¬ Balks values option e

theorem Askable.isKey {values option : Entries} (h : Askable values option)
    (hvar : HasVariable option = true) : (option.fieldD "var").isKey = true := by
  cases hkey : (option.fieldD "var").isKey with
  | true => rfl
  | false => exact absurd (.unkeyed hvar hkey) (h .mistyped)

/-- An option names a variable as its own. -/
def Names (option : Entries) (k : Value) : Bool :=
  HasVariable option && k.same (option.fieldD "var")

/-- An option without listed values can be asked for if its name and what it is set to can be written. -/
theorem Askable.unlisted {values option : Entries} (hkey : (option.fieldD "var").isKey = true)
    (hlists : Lists option []) (hname : (nameOf option).writable = true)
    (hpresent : (presentOf values option).writable = true) : Askable values option := by
  rintro e (⟨-, hunkeyed⟩ | ⟨-, -, hlists', huntold⟩)
  · exact Bool.false_ne_true (hunkeyed.symm.trans hkey)
  · cases hlists.unique hlists'
    exact huntold ⟨by simp, hname, hpresent⟩

theorem configureOne_accepts {option values : Entries} {listed : List Entries}
    (hlists : Lists option listed) (h : Askable values option) :
    Prints (configureOne true values (.mapping option)) (.returned (withPresent values option)) := by
  unfold withPresent
  cases hvar : HasVariable option with
  | false =>
    rw [configureOne_of_unnamed hvar]
    exact .pure values
  | true =>
    have hkey := h.isKey hvar
    have htells : Tells option listed (presentOf values option) :=
      Classical.not_not.mp fun huntold => h .unwritable (.untold hvar hkey hlists huntold)
    intro n t
    obtain ⟨lines, hone⟩ := configureOne_of_named true hvar hkey hlists htells n t
    exact ⟨lines, hone.trans (congrArg (Trail.mk _ · t) (List.append_nil _))⟩

theorem configureOne_balks {option values : Entries} {e : Fault} (h : Balks values option e) :
    Prints (configureOne true values (.mapping option)) (.raised e) := by
  cases h with
  | unkeyed hvar hkey =>
    rw [configureOne_of_unkeyed hvar hkey]
    exact .raise _
  | untold hvar hkey hlists h => exact configureOne_of_untold true hvar hkey hlists h

/-! ## What is kept -/

theorem get?_withPresent {k : Value} (hk : k.isKey) (values option : Entries) :
    (withPresent values option).get? k =
      (values.get? k).or (if Names option k then some .null else none) := by
  unfold withPresent Names
  cases HasVariable option with
  | false => simp
  | true =>
    rw [if_pos rfl, Entries.get?_put hk, Bool.true_and]
    split
    · next hsame =>
      rw [Entries.get?_congr hk hsame]
      cases values.get? (option.fieldD "var") <;> rfl
    · exact (Option.or_none).symm

/-- An answer with nothing does not change what an option that is asked for finds its variable set to. -/
theorem presentOf_withPresent {option : Entries} (hkey : (option.fieldD "var").isKey = true)
    (values other : Entries) :
    presentOf (withPresent values other) option = presentOf values option := by
  rw [presentOf, get?_withPresent hkey, presentOf]
  cases values.get? (option.fieldD "var") with
  | some v => rfl
  | none => cases Names other (option.fieldD "var") <;> rfl

/-- Whether an option is asked for depends on no more of the values than what its variable is set to. -/
theorem Balks.congr {values values' option : Entries} {e : Fault}
    (hpresent : (option.fieldD "var").isKey = true → presentOf values option = presentOf values' option)
    (h : Balks values option e) : Balks values' option e := by
  cases h with
  | unkeyed hvar hkey => exact .unkeyed hvar hkey
  | untold hvar hkey hlists h => exact .untold hvar hkey hlists (hpresent hkey ▸ h)

theorem balks_withPresent {values other option : Entries} {e : Fault} :
    Balks (withPresent values other) option e ↔ Balks values option e :=
  ⟨.congr fun hkey => presentOf_withPresent hkey values other,
    .congr fun hkey => (presentOf_withPresent hkey values other).symm⟩

/-- The first option that is not asked for, after all those before it were, ends the question. -/
def FirstBalks (values : Entries) (options : List Entries) (e : Fault) : Prop :=
  ∃ before option after, options = before ++ option :: after ∧
    (∀ other ∈ before, Askable values other) ∧ Balks values option e

theorem firstBalks_of_not {values : Entries} {options : List Entries}
    (h : ¬ ∀ option ∈ options, Askable values option) : ∃ e, FirstBalks values options e := by
  induction options with
  | nil => exact absurd (by simp) h
  | cons option options ih =>
    by_cases hoption : Askable values option
    · have hrest : ¬ ∀ option ∈ options, Askable values option := fun hrest =>
        h (List.forall_mem_cons.mpr ⟨hoption, hrest⟩)
      obtain ⟨e, before, found, after, rfl, hbefore, hfound⟩ := ih hrest
      exact ⟨e, option :: before, found, after, rfl, List.forall_mem_cons.mpr ⟨hoption, hbefore⟩, hfound⟩
    · obtain ⟨e, he⟩ := not_forall_not.mp hoption
      exact ⟨e, [], option, options, rfl, by simp, he⟩

section

variable {options : List Entries} (hlisted : ∀ option ∈ options, ∃ listed, Lists option listed)

include hlisted

theorem configureAll_accepts {values : Entries} (h : ∀ option ∈ options, Askable values option) :
    Prints (configureAll true values (options.map .mapping))
      (.returned (options.foldl withPresent values)) := by
  induction options generalizing values with
  | nil => exact .pure values
  | cons option options ih =>
    obtain ⟨⟨listed, hlists⟩, hlisted⟩ := List.forall_mem_cons.mp hlisted
    obtain ⟨hoption, hrest⟩ := List.forall_mem_cons.mp h
    refine (configureOne_accepts hlists hoption).bind (ih hlisted fun other hother e he => ?_)
    exact hrest other hother e (balks_withPresent.mp he)

theorem configureAll_balks {values : Entries} {e : Fault} (h : FirstBalks values options e) :
    Prints (configureAll true values (options.map .mapping)) (.raised e) := by
  obtain ⟨before, option, after, rfl, hbefore, hoption⟩ := h
  induction before generalizing values with
  | nil => exact (configureOne_balks hoption).bind_of_raised _
  | cons other before ih =>
    obtain ⟨⟨listed, hlists⟩, hlisted⟩ := List.forall_mem_cons.mp hlisted
    obtain ⟨hother, hbefore⟩ := List.forall_mem_cons.mp hbefore
    refine (configureOne_accepts hlists hother).bind (ih hlisted (fun o ho e he => ?_) ?_)
    · exact hbefore o ho e (balks_withPresent.mp he)
    · exact balks_withPresent.mpr hoption

end

/-- Options that are answered with nothing leave what is set, and set the variables that are not to null. -/
theorem get?_foldl_withPresent {k : Value} (hk : k.isKey) (options : List Entries)
    (values : Entries) : (options.foldl withPresent values).get? k =
      (values.get? k).or (if options.any (Names · k) then some .null else none) := by
  induction options generalizing values with
  | nil => simp
  | cons option options ih =>
    rw [List.foldl_cons, ih, get?_withPresent hk, Option.or_assoc, List.any_cons]
    cases Names option k <;> simp

/-- The variables of options that are asked for can be keys. -/
def Keyed (option : Entries) : Prop :=
  HasVariable option = true → (option.fieldD "var").isKey = true

theorem foldl_withPresent_keys {options : List Entries} (h : ∀ option ∈ options, Keyed option)
    {values : Entries} (hvalues : ∀ p ∈ values, p.1.isKey) :
    ∀ p ∈ options.foldl withPresent values, p.1.isKey := by
  induction options generalizing values with
  | nil => exact hvalues
  | cons option options ih =>
    obtain ⟨hoption, hrest⟩ := List.forall_mem_cons.mp h
    refine ih hrest ?_
    unfold withPresent
    split
    · next hvar => exact Entries.put_keys hvalues (hoption hvar) _
    · exact hvalues

theorem foldl_withPresent_distinct {options : List Entries} (h : ∀ option ∈ options, Keyed option)
    {values : Entries} (hvalues : values.Distinct) :
    (options.foldl withPresent values).Distinct := by
  induction options generalizing values with
  | nil => exact hvalues
  | cons option options ih =>
    obtain ⟨hoption, hrest⟩ := List.forall_mem_cons.mp h
    refine ih hrest ?_
    unfold withPresent
    split
    · next hvar => exact hvalues.put (hoption hvar) _
    · exact hvalues

/-! ## The question -/

section

variable {r : PromptRequest} {options : List Entries} {values : Entries}
  (hprompt : r.prompt = .configure) (hpresentable : Presentable r)
  (hoptions : (r.data.fieldD "options").listOrEmpty = .ok (options.map .mapping))
  (hvalues : ((r.data.fieldD "values").orElse (.mapping [])).asMapping = .ok values)

include hprompt hpresentable hoptions hvalues

theorem decide_prints {o : Ending Entries}
    (h : Prints (configureAll true values (options.map .mapping)) o) :
    Prints (decide true r) (o.map fun decided => { value := .mapping decided }) := by
  intro n t
  obtain ⟨shown, hshown⟩ :=
    decide_of_configure hprompt hpresentable hoptions hvalues true n t
  obtain ⟨lines, hlines⟩ := h n t
  refine ⟨shown ++ lines, ?_⟩
  rw [hshown, bind_pure_apply, hlines, List.map_append]
  rfl

end

end Console

/-! ## In an installation -/

/-- A world is as another one was, but for lines that were printed since. -/
def Printed (w w' : Hosted Machine) : Prop :=
  ∃ lines : List String, w' = { w with
    outside := { w.outside with happened := w.outside.happened ++ lines.map .printed } }

theorem Printed.refl (w : Hosted Machine) : Printed w w := ⟨[], by simp⟩

/-- A run ends like this and only prints, whatever was printed before. -/
def Shows (w : Hosted Machine) (r : Program.Work α) (o : Ending α) : Prop :=
  Leads (Printed w) r fun o' w' => o' = o ∧ Printed w w'

namespace Shows

variable {w : Hosted Machine}

theorem pure (a : α) : Shows w (Pure.pure a) (.returned a) :=
  Leads.pure fun _ hw => ⟨rfl, hw⟩

theorem raise (e : Fault) : Shows w (Run.raise e : Program.Work α) (.raised e) :=
  Leads.raise fun _ hw => ⟨rfl, hw⟩

theorem ok {x : Fallible α} {a : α} (h : x = .ok a) : Shows w (liftM x) (.returned a) := by
  rw [h]
  exact pure a

theorem emit (s : Signal) : Shows w (Run.emit s) (.returned ()) := fun _ _ hw => ⟨rfl, hw⟩

/-- A line that is left out if its text cannot be made. -/
theorem logText (level : Level) (source : String) (text : Fallible String) :
    Shows w (Host.logText level source text) (.returned ()) := by
  cases text with
  | ok line => exact emit _
  | error e => exact pure ()

theorem current : Shows w Session.current (.returned w.session) := by
  rintro n w' ⟨lines, rfl⟩
  exact ⟨rfl, lines, rfl⟩

theorem bind {r : Program.Work α} {a : α} {next : α → Program.Work β} {o : Ending β}
    (hr : Shows w r (.returned a)) (hnext : Shows w (next a) o) : Shows w (r >>= next) o :=
  Leads.bind hr (fun b n w' ⟨hb, hw⟩ => by cases hb; exact hnext n w' hw) (fun _ _ h => nomatch h.1)
    fun _ h => nomatch h.1

theorem bind_of_raised {r : Program.Work α} {e : Fault} (hr : Shows w r (.raised e))
    (next : α → Program.Work β) : Shows w (r >>= next) (.raised e) :=
  Leads.bind hr (fun _ _ _ h => nomatch h.1) (fun _ _ ⟨he, hw⟩ => by cases he; exact ⟨rfl, hw⟩)
    fun _ h => nomatch h.1

theorem atTerminal {d : Dialogue α} {o : Ending α} (h : Console.Prints d o) :
    Shows w (Program.atTerminal d) o := by
  rintro n w' ⟨lines, rfl⟩
  obtain ⟨lines', hd⟩ := h n w.outside.terminal
  unfold Program.atTerminal
  dsimp only
  rw [hd]
  refine ⟨rfl, lines ++ lines', ?_⟩
  rw [Program.seen, List.map_append, List.append_assoc]

theorem rescue {r : Program.Work α} {handler : Fault → Program.Work α} {o : Ending α}
    (hr : Shows w r o) (h : ∀ e, o = .raised e → Shows w (handler e) o) :
    Shows w (r.rescue handler) o :=
  Leads.rescue hr (fun _ _ h => h)
    (fun e n w' ⟨he, hw⟩ => h e he.symm n w' hw) fun _ h => h

section

variable {host : Host (Hosted Machine)} {prompt : Prompt} {data : Entries} (hdata : data ≠ [])

include hdata

theorem read_data :
    (if (Value.mapping data).truth then (Value.mapping data).asMapping else .ok []) = .ok data :=
  if_pos (by simpa [Value.truth] using hdata)

theorem ask {d : Decision} (h : Shows w (host.decide { prompt, data }) (.returned d)) :
    Shows w (host.ask prompt (.mapping data)) (.returned d) := by
  unfold Host.ask
  refine (ok (read_data hdata)).bind ((emit _).bind ((emit _).bind ?_))
  exact (h.rescue fun _ he => by cases he).bind ((emit _).bind (pure d))

theorem ask_of_raised {e : Fault} (he : ∀ message, e ≠ .cancelled message)
    (h : Shows w (host.decide { prompt, data }) (.raised e)) :
    Shows w (host.ask prompt (.mapping data)) (.raised e) := by
  unfold Host.ask
  refine (ok (read_data hdata)).bind ((emit _).bind ((emit _).bind ?_))
  refine (h.rescue fun e' he' => ?_).bind_of_raised _
  cases he'
  cases e with
  | cancelled message => exact absurd rfl (he message)
  | _ => exact raise _

end

end Shows

/-! ## Defaults -/

namespace OperatingSystem

theorem optionDefault_mapping (option : Entries) : optionDefault (.mapping option) =
    if option.has "var" && option.has "value" then
      if (option.fieldD "var").isKey then
        .ok (some (option.fieldD "var", option.fieldD "value"))
      else .error .mistyped
    else .ok none := by
  unfold optionDefault Entries.has Entries.fieldD
  rcases hvar : option.field? "var" with _ | var <;>
    rcases hvalue : option.field? "value" with _ | value
  case some.some =>
    simp only [Value.includes, Value.item, Entries.has, hvar, hvalue]
    cases hkey : var.isKey <;> rfl
  all_goals
    simp only [Value.includes, Entries.has, hvar, hvalue]
    rfl

/-- The default of an option, if it has one, can be stored. -/
def Storable (option : Entries) : Prop :=
  option.has "value" = true → (option.fieldD "var").isKey = true

theorem optionDefault_of_storable {option : Entries} (h : Storable option) :
    ∃ default, optionDefault (.mapping option) = .ok default := by
  rw [optionDefault_mapping]
  split
  · next hboth => exact ⟨_, if_pos (h (Bool.and_eq_true_iff.mp hboth).2)⟩
  · exact ⟨none, rfl⟩

theorem optionDefault_of_not_storable {option : Entries} (h : ¬ Storable option) :
    optionDefault (.mapping option) = .error .mistyped := by
  rw [Storable, Classical.not_imp, Bool.not_eq_true] at h
  obtain ⟨hvalue, hkey⟩ := h
  have hvar : option.has "var" = true := by
    rw [Entries.fieldD] at hkey
    rw [Entries.has]
    cases hfield : option.field? "var" with
    | none =>
      rw [hfield] at hkey
      cases hkey
    | some var => rfl
  rw [optionDefault_mapping, hvar, hvalue, hkey]
  rfl

theorem defaultsFrom_of_storable {options : List Entries} (h : ∀ option ∈ options, Storable option)
    (acc : Entries) : defaultsFrom acc (options.map .mapping) =
      .ok (acc.putAll (defaultEntries (options.map .mapping))) := by
  have hok : ∃ es, defaultsFrom acc (options.map .mapping) = .ok es := by
    induction options generalizing acc with
    | nil => exact ⟨acc, rfl⟩
    | cons option options ih =>
      obtain ⟨hoption, hrest⟩ := List.forall_mem_cons.mp h
      obtain ⟨default, hdefault⟩ := optionDefault_of_storable hoption
      rw [List.map_cons, defaultsFrom, hdefault]
      cases default with
      | none => exact ih hrest acc
      | some p => exact ih hrest _
  obtain ⟨es, hes⟩ := hok
  rw [hes, defaultsFrom_eq hes]

theorem defaultsFrom_of_not_storable {options : List Entries}
    (h : ∃ option ∈ options, ¬ Storable option) (acc : Entries) :
    defaultsFrom acc (options.map .mapping) = .error .mistyped := by
  induction options generalizing acc with
  | nil => simp at h
  | cons option options ih =>
    rw [List.map_cons, defaultsFrom]
    by_cases hoption : Storable option
    · have hrest : ∃ option ∈ options, ¬ Storable option := by simpa [hoption] using h
      obtain ⟨default, hdefault⟩ := optionDefault_of_storable hoption
      rw [hdefault]
      cases default with
      | none => exact ih hrest acc
      | some p => exact ih hrest _
    · rw [optionDefault_of_not_storable hoption]

section

variable {os : OperatingSystem} {options : List Entries}
  (hoptions : os.options = .ok (options.map .mapping))

include hoptions

theorem optionDefaults_of_storable (h : ∀ option ∈ options, Storable option) :
    os.optionDefaults = .ok (Entries.ofPairs (defaultEntries (options.map .mapping))) := by
  rw [optionDefaults, hoptions]
  exact defaultsFrom_of_storable h []

theorem optionDefaults_of_not_storable (h : ∃ option ∈ options, ¬ Storable option) :
    os.optionDefaults = .error .mistyped := by
  rw [optionDefaults, hoptions]
  exact defaultsFrom_of_not_storable h []

end

end OperatingSystem

/-! ## Unattended configuration -/

namespace Installer

open OperatingSystem (Storable defaultEntries)

/-- What is set when the options are answered with nothing: without options nothing is asked. -/
def keptEntries (options : List Entries) (preset : Entries) : Entries :=
  if options.isEmpty then preset else preset.putAll (options.foldl Console.withPresent preset)

section

variable {i : Installer Machine} {os : OperatingSystem} {options : List Entries}
  {w : Hosted Machine}
  (hshell : ∀ r, i.host.decide r = Program.atTerminal (Console.decide true r))
  (hoptions : os.options = .ok (options.map .mapping))
  (hlisted : ∀ option ∈ options, ∃ listed, Console.Lists option listed)

omit hlisted in
theorem configureRequest_prints {preset : Entries} {o : Ending Entries}
    (h : Console.Prints (Console.configureAll true preset (options.map .mapping)) o) :
    Console.Prints (Console.decide true (configureRequest (options.map .mapping) preset))
      (o.map fun decided => { value := .mapping decided }) := by
  have hfield (name : String) : (configureRequest (options.map .mapping) preset).data.fieldD name =
      if "options" = name then .list (options.map .mapping)
      else if "values" = name then .mapping preset else .null := by
    simp only [configureRequest, Entries.fieldD, Entries.field?_cons, Entries.same_str,
      Value.str.injEq]
    split
    · rfl
    · split <;> rfl
  have htitle : ∀ key ∈ ["title", "description"],
      ((configureRequest (options.map .mapping) preset).data.fieldD key).writable = true := by
    simp only [List.forall_mem_cons, List.not_mem_nil, false_imp_iff, implies_true, and_true]
    exact ⟨by rw [hfield]; rfl, by rw [hfield]; rfl⟩
  refine Console.decide_prints rfl ⟨fun h => (by cases h), htitle, [], [], ?_, ?_, by simp⟩ ?_ ?_ h
  · rw [hfield]
    rfl
  · rw [hfield]
    rfl
  · rw [hfield, if_pos rfl]
    cases options <;> rfl
  · rw [hfield, if_neg (by decide), if_pos rfl]
    cases preset <;> rfl

include hshell hlisted

theorem askOptions_accepts {preset : Settings} (hfrozen : preset.frozen = false)
    (h : ∀ option ∈ options, Console.Askable preset.data option) :
    Shows w (i.askOptions (options.map .mapping) preset)
      (.returned { preset with
        data := preset.data.putAll (options.foldl Console.withPresent preset.data) }) := by
  have hdecide : Shows w (i.host.decide (configureRequest (options.map .mapping) preset.data))
      (.returned { value := .mapping (options.foldl Console.withPresent preset.data) }) := by
    rw [hshell]
    exact .atTerminal (configureRequest_prints (Console.configureAll_accepts hlisted h))
  generalize options.foldl Console.withPresent preset.data = decided at hdecide ⊢
  have hresumes : Decision.resumes { value := .mapping decided } = true := rfl
  have hvalue : (Value.mapping decided).orElse (.mapping []) = .mapping decided := by
    cases decided <;> rfl
  unfold askOptions
  refine (Shows.emit _).bind ((Shows.ask (List.cons_ne_nil _ _) hdecide).bind ?_)
  simp only [hresumes, hvalue, Bool.not_true, Bool.false_eq_true, if_false]
  exact .ok (Settings.update_eq hfrozen _)

theorem askOptions_balks {preset : Settings} {e : Fault}
    (h : Console.FirstBalks preset.data options e) :
    Shows w (i.askOptions (options.map .mapping) preset) (.raised e) := by
  have hdecide : Shows w (i.host.decide (configureRequest (options.map .mapping) preset.data))
      (.raised e) := by
    rw [hshell]
    exact .atTerminal (configureRequest_prints (Console.configureAll_balks hlisted h))
  have hcancelled : ∀ message, e ≠ .cancelled message := by
    obtain ⟨-, option, -, -, -, hbalks⟩ := h
    cases hbalks <;> exact fun _ h => by cases h
  unfold askOptions
  have hask := Shows.ask_of_raised (List.cons_ne_nil _ _) hcancelled hdecide
  exact (Shows.emit _).bind (hask.bind_of_raised _)

include hoptions

omit hshell hlisted in
/-- The defaults come first, so an option whose default cannot be stored keeps all from being asked for. -/
theorem configure_unstorable (h : ¬ ∀ option ∈ options, Storable option) :
    Shows w (i.configure os) (.raised .mistyped) := by
  have hunstorable : ∃ option ∈ options, ¬ Storable option := by
    simpa only [not_forall, exists_prop] using h
  unfold configure
  rw [OperatingSystem.optionDefaults_of_not_storable hoptions hunstorable]
  exact (Shows.raise _).bind_of_raised _

theorem configure_accepts (hstorable : ∀ option ∈ options, Storable option)
    (haskable : ∀ option ∈ options,
      Console.Askable (presetEntries (options.map .mapping) w.session) option) :
    Shows w (i.configure os)
      (.returned ⟨keptEntries options (presetEntries (options.map .mapping) w.session), true⟩) := by
  have hdefaults := OperatingSystem.optionDefaults_of_storable hoptions hstorable
  unfold configure
  refine (Shows.ok hdefaults).bind ((Shows.ok (Settings.update_eq rfl _)).bind
    (Shows.current.bind ((Shows.ok (Settings.update_eq rfl _)).bind ((Shows.ok hoptions).bind ?_))))
  cases options with
  | nil => exact (Shows.emit _).bind ((Shows.pure _).bind ((Shows.logText _ _ _).bind (.pure _)))
  | cons option options =>
    exact (askOptions_accepts hshell hlisted rfl haskable).bind ((Shows.logText _ _ _).bind (.pure _))

theorem configure_balks (hstorable : ∀ option ∈ options, Storable option) {e : Fault}
    (h : Console.FirstBalks (presetEntries (options.map .mapping) w.session) options e) :
    Shows w (i.configure os) (.raised e) := by
  have hdefaults := OperatingSystem.optionDefaults_of_storable hoptions hstorable
  unfold configure
  refine (Shows.ok hdefaults).bind ((Shows.ok (Settings.update_eq rfl _)).bind
    (Shows.current.bind ((Shows.ok (Settings.update_eq rfl _)).bind ((Shows.ok hoptions).bind ?_))))
  cases options with
  | nil =>
    obtain ⟨before, option, after, hnil, -⟩ := h
    exact absurd hnil.symm (by simp)
  | cons option options => exact (askOptions_balks hshell hlisted h).bind_of_raised _

end

theorem presetEntries_keys {options : List Value} {s : Session}
    (hset : ∀ p ∈ s.options, p.1.isKey) : ∀ p ∈ presetEntries options s, p.1.isKey :=
  Entries.putAll_keys (Entries.putAll_keys (by simp) (Entries.putAll_keys (by simp)
    OperatingSystem.defaultEntries_isKey)) hset

theorem presetEntries_distinct {options : List Value} {s : Session}
    (hset : ∀ p ∈ s.options, p.1.isKey) : (presetEntries options s).Distinct :=
  (Entries.ofPairs_distinct (Entries.putAll_keys (by simp)
    OperatingSystem.defaultEntries_isKey)).putAll_of_isKey hset

section

variable {options : List Entries} {preset : Entries}
  (hkeyed : ∀ option ∈ options, Console.Keyed option)

include hkeyed

theorem keptEntries_keys (hpreset : ∀ p ∈ preset, p.1.isKey) :
    ∀ p ∈ keptEntries options preset, p.1.isKey := by
  unfold keptEntries
  split
  · exact hpreset
  · exact Entries.putAll_keys hpreset (Console.foldl_withPresent_keys hkeyed hpreset)

theorem keptEntries_distinct (hpreset : ∀ p ∈ preset, p.1.isKey) (hdistinct : preset.Distinct) :
    (keptEntries options preset).Distinct := by
  unfold keptEntries
  split
  · exact hdistinct
  · exact hdistinct.putAll_of_isKey (Console.foldl_withPresent_keys hkeyed hpreset)

theorem get?_keptEntries (hdistinct : preset.Distinct) {k : Value} (hk : k.isKey) :
    (keptEntries options preset).get? k =
      (preset.get? k).or (if options.any (Console.Names · k) then some .null else none) := by
  unfold keptEntries
  split
  · next hempty =>
    rw [List.isEmpty_iff.mp hempty]
    exact (Option.or_none).symm
  · rw [Entries.get?_putAll hk,
      Entries.last?_eq_get? hk (Console.foldl_withPresent_distinct hkeyed hdistinct),
      Console.get?_foldl_withPresent hk]
    cases preset.get? k <;> simp

end

/-- Settings are what was set, over the last default of each variable, over null for a variable that an
option names; and nothing else is set. -/
structure KeepsDefaults (options : List Entries) (set : Entries) (settings : Settings) : Prop where
  frozen : settings.frozen = true
  isKey : ∀ p ∈ settings.data, p.1.isKey = true
  distinct : settings.data.Distinct
  get?_eq : ∀ k, k.isKey → settings.get? k =
    ((set.last? k).or ((defaultEntries (options.map .mapping)).last? k)).or
      (if options.any (Console.Names · k) then some .null else none)

theorem keptEntries_keepsDefaults {options : List Entries} {s : Session}
    (hkeyed : ∀ option ∈ options, Console.Keyed option) (hset : ∀ p ∈ s.options, p.1.isKey) :
    KeepsDefaults options s.options
      ⟨keptEntries options (presetEntries (options.map .mapping) s), true⟩ where
  frozen := rfl
  isKey := keptEntries_keys hkeyed (presetEntries_keys hset)
  distinct := keptEntries_distinct hkeyed (presetEntries_keys hset) (presetEntries_distinct hset)
  get?_eq k hk := by
    have hpreset := get?_preset_putAll (options.map .mapping) s [] hk
    exact (get?_keptEntries hkeyed (presetEntries_distinct hset) hk).trans
      (congrArg (Option.or · _) hpreset)

theorem get?_presetEntries {options options' : List Value} {s : Session} {k : Value} (hk : k.isKey)
    (h : (defaultEntries options').last? k = (defaultEntries options).last? k) :
    (presetEntries options' s).get? k = (presetEntries options s).get? k := by
  have hpreset := get?_preset_putAll options s [] hk
  have hpreset' := get?_preset_putAll options' s [] hk
  rw [h] at hpreset'
  exact hpreset'.trans hpreset.symm

/-- The defaults of the options can be stored, and the options all asked for. -/
structure Settable (options : List Entries) (s : Session) : Prop where
  storable : ∀ option ∈ options, Storable option
  askable : ∀ option ∈ options, Console.Askable (presetEntries (options.map .mapping) s) option

/-- In another order of the options with the same last defaults they can be set just as well. -/
theorem Settable.perm {options options' : List Entries} {s : Session} (h : Settable options s)
    (hperm : options'.Perm options)
    (hlast : ∀ k, k.isKey → (defaultEntries (options'.map .mapping)).last? k =
      (defaultEntries (options.map .mapping)).last? k) : Settable options' s where
  storable option hmem := h.storable option (hperm.mem_iff.mp hmem)
  askable option hmem e hbalks :=
    h.askable option (hperm.mem_iff.mp hmem) e (hbalks.congr fun hkey => by
      rw [Console.presentOf, Console.presentOf, get?_presetEntries hkey (hlast _ hkey)])

/-- Where the defaults are accepted, the configuration reads no line: it only prints. If the defaults can
be stored and the options asked for, it ends with the defaults kept, in every order of the options that
keeps the last defaults. A default that cannot be stored, or else the first option that cannot be asked
for, is what it fails with. -/
theorem configure_unattended {i : Installer Machine} {os : OperatingSystem} {options : List Entries}
    (hshell : ∀ r, i.host.decide r = Program.atTerminal (Console.decide true r))
    (hoptions : os.options = .ok (options.map .mapping))
    (hlisted : ∀ option ∈ options, ∃ listed, Console.Lists option listed) {w : Hosted Machine}
    (hset : ∀ p ∈ w.session.options, p.1.isKey) (n : Nat) :
    Printed w (i.configure os n w).world ∧
      ((¬ ∀ option ∈ options, Storable option) →
        (i.configure os n w).ending = .raised .mistyped) ∧
      ((∀ option ∈ options, Storable option) → ∀ e,
        Console.FirstBalks (presetEntries (options.map .mapping) w.session) options e →
        (i.configure os n w).ending = .raised e) ∧
      (Settable options w.session → ∃ settings, (i.configure os n w).ending = .returned settings ∧
        KeepsDefaults options w.session.options settings ∧
        ∀ (os' : OperatingSystem) (options' : List Entries),
          os'.options = .ok (options'.map .mapping) → options'.Perm options →
          (∀ k, k.isKey → (defaultEntries (options'.map .mapping)).last? k =
            (defaultEntries (options.map .mapping)).last? k) →
          ∃ settings', (i.configure os' n w).ending = .returned settings' ∧
            ∀ k, k.isKey → settings'.get? k = settings.get? k) := by
  have unstorable (h : ¬ ∀ option ∈ options, Storable option) :
      (i.configure os n w).ending = .raised .mistyped ∧ Printed w (i.configure os n w).world :=
    configure_unstorable hoptions h n w (.refl w)
  have balking (hstorable : ∀ option ∈ options, Storable option) {e : Fault}
      (h : Console.FirstBalks (presetEntries (options.map .mapping) w.session) options e) :=
    configure_balks hshell hoptions hlisted hstorable h n w (.refl w)
  have accepting (h : Settable options w.session) :=
    configure_accepts hshell hoptions hlisted h.storable h.askable n w (.refl w)
  refine ⟨?_, fun h => (unstorable h).1, fun hstorable e h => (balking hstorable h).1, fun h => ?_⟩
  · by_cases hstorable : ∀ option ∈ options, Storable option
    · by_cases haskable : ∀ option ∈ options,
          Console.Askable (presetEntries (options.map .mapping) w.session) option
      · exact (accepting ⟨hstorable, haskable⟩).2
      · obtain ⟨e, he⟩ := Console.firstBalks_of_not haskable
        exact (balking hstorable he).2
    · exact (unstorable hstorable).2
  · have hkeyed : ∀ option ∈ options, Console.Keyed option := fun option hmem =>
      (h.askable option hmem).isKey
    refine ⟨_, (accepting h).1, keptEntries_keepsDefaults hkeyed hset, ?_⟩
    intro os' options' hoptions' hperm hlast
    have h' := h.perm hperm hlast
    have hkeyed' := fun option hmem => hkeyed option (hperm.mem_iff.mp hmem)
    obtain ⟨hending', -⟩ := configure_accepts hshell hoptions'
      (fun option hmem => hlisted option (hperm.mem_iff.mp hmem)) h'.storable h'.askable n w (.refl w)
    refine ⟨_, hending', fun k hk => ?_⟩
    rw [(keptEntries_keepsDefaults hkeyed' hset).get?_eq k hk,
      (keptEntries_keepsDefaults hkeyed hset).get?_eq k hk, hlast k hk]
    have hany : options'.any (Console.Names · k) = options.any (Console.Names · k) := hperm.any_eq
    rw [hany]

/-- Two defaults for one variable, and a variable without any. -/
def channelDefaults : List Entries := [
  [(.str "var", .str "channel"), (.str "value", .str "stable")],
  [(.str "var", .str "wipe"), (.str "type", .str "checkbox")],
  [(.str "var", .str "channel"), (.str "value", .str "devel")]]

/-- A program whose user accepts the defaults, and which can start and fetch nothing. -/
def acceptingInstaller : Installer Machine :=
  Program.installer { start := fun _ => pure none, get := fun _ => Run.unfinished }
    { catalog := "devices", cache := "cache", log := "run.log", assumeYes := true }

/-- A machine on which an option was set in the session. -/
def presetMachine : Hosted Machine :=
  ⟨{ options := [(.str "serial", .str "a1")] }, { files := default }⟩

/-- An operating system with options. -/
def systemWith (options : List Entries) : OperatingSystem :=
  ⟨[(.str "options", .list (options.map .mapping))], []⟩

theorem channel_defaults_kept :
    Printed presetMachine
        (acceptingInstaller.configure (systemWith channelDefaults) 0 presetMachine).world ∧
      ∃ settings,
        (acceptingInstaller.configure (systemWith channelDefaults) 0 presetMachine).ending =
          .returned settings ∧
        KeepsDefaults channelDefaults [(.str "serial", .str "a1")] settings := by
  have hlisted : ∀ option ∈ channelDefaults, ∃ listed, Console.Lists option listed := by
    simp only [channelDefaults, List.forall_mem_cons, List.not_mem_nil, false_imp_iff, implies_true,
      and_true]
    exact ⟨⟨[], by cbv⟩, ⟨[], by cbv⟩, [], by cbv⟩
  have hstorable : ∀ option ∈ channelDefaults, Storable option := by
    simp only [channelDefaults, List.forall_mem_cons, List.not_mem_nil, false_imp_iff, implies_true,
      and_true]
    exact ⟨fun _ => by cbv, fun _ => by cbv, fun _ => by cbv⟩
  have haskable : ∀ option ∈ channelDefaults, Console.Askable
      (presetEntries (channelDefaults.map .mapping) presetMachine.session) option := by
    simp only [channelDefaults, List.forall_mem_cons, List.not_mem_nil, false_imp_iff, implies_true,
      and_true]
    exact ⟨.unlisted (by cbv) (by cbv) (by cbv) (by cbv), .unlisted (by cbv) (by cbv) (by cbv) (by cbv),
      .unlisted (by cbv) (by cbv) (by cbv) (by cbv)⟩
  obtain ⟨hprinted, -, -, hsettled⟩ := @configure_unattended acceptingInstaller
    (systemWith channelDefaults) channelDefaults (fun _ => rfl) (by cbv) hlisted presetMachine
    (by decide) 0
  obtain ⟨settings, hending, hkeeps, -⟩ := hsettled ⟨hstorable, haskable⟩
  exact ⟨hprinted, settings, hending, hkeeps⟩

/-- An option with a default. -/
def optionWith (var value : Value) : Entries :=
  [(.str "var", var), (.str "value", value)]

theorem unwritable_default_fails {v : Value} (h : v.writable = false) :
    (acceptingInstaller.configure (systemWith [optionWith (.str "a") v]) 0 presetMachine).ending =
      .raised .unwritable := by
  have hvar : (optionWith (.str "a") v).fieldD "var" = .str "a" := by cbv
  have hlists : Console.Lists (optionWith (.str "a") v) [] := by cbv
  have hpresent : Console.presentOf (presetEntries ([optionWith (.str "a") v].map .mapping)
      presetMachine.session) (optionWith (.str "a") v) = v := by cbv
  have huntold : ¬ Console.Tells (optionWith (.str "a") v) []
      (Console.presentOf (presetEntries ([optionWith (.str "a") v].map .mapping)
        presetMachine.session) (optionWith (.str "a") v)) := fun htells => by
    rw [hpresent] at htells
    exact Bool.false_ne_true (h.symm.trans htells.present)
  have hkey : ((optionWith (.str "a") v).fieldD "var").isKey = true := by rw [hvar]; rfl
  have hnamed : Console.HasVariable (optionWith (.str "a") v) = true := by
    rw [Console.HasVariable, hvar]
    rfl
  exact (configure_balks (fun _ => rfl) (by cbv)
    (fun option hmem => ⟨[], List.mem_singleton.mp hmem ▸ hlists⟩)
    (fun option hmem _ => List.mem_singleton.mp hmem ▸ hkey)
    ⟨[], _, [], rfl, by simp, .untold hnamed hkey hlists huntold⟩ 0 presetMachine (.refl _)).1

/-- A list as a variable cannot be a key, and a default of too many digits cannot be shown, so neither
configuration keeps its default. -/
theorem listed_option_fails :
    (acceptingInstaller.configure (systemWith [optionWith (.list [.str "a"]) (.str "b")]) 0
        presetMachine).ending = .raised .mistyped ∧
      (acceptingInstaller.configure
        (systemWith [optionWith (.str "a") .overlong]) 0 presetMachine).ending =
          .raised .unwritable := by
  refine ⟨?_, unwritable_default_fails Value.writable_overlong⟩
  have hunkeyed : ((optionWith (.list [.str "a"]) (.str "b")).fieldD "var").isKey = false := by cbv
  have hunstorable : ¬ ∀ option ∈ [optionWith (.list [.str "a"]) (.str "b")], Storable option := fun h =>
    Bool.false_ne_true (hunkeyed.symm.trans (h _ (List.mem_singleton_self _) (by cbv)))
  exact (configure_unstorable (by cbv) hunstorable 0 presetMachine (.refl _)).1

end Installer

end Reflash
