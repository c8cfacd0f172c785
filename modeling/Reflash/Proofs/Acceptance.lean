import Reflash.Proofs.Grouping

set_option autoImplicit false

/-! # Which device documents are accepted

A device document is accepted exactly if it is well-formed (`Device.Formed`): the device and each of
its systems are named, and whatever stands in the place of steps lists steps that are well-formed
themselves (`Step.Formed`). There are two predicates for each reader, and one law (`Reads`): the reader
accepts what the first one holds of, fails at what the second one holds of, and refuses anything else as
a fault of the document. What a reader fails at is the type of a step, if that cannot be written
(`Step.Untold`) and nothing before it is to be refused.

The law of the whole document has an exception (`Device.Misread`). The handlers are taken for a mapping
before anything has looked at them, so a document with anything else in their place is not refused but
fails. -/

namespace Reflash

variable {α β : Type}

/-! ## Readers -/

/-- A reading succeeds exactly with what is good, and fails exactly at what cannot be told; anything else
is refused as a fault of the document. -/
structure Reads (x : Fallible α) (good untold : Prop) : Prop where
  accepts : (∃ a, x = .ok a) ↔ good
  fails : x = .error .unwritable ↔ untold
  refuses : ∀ e, x = .error e → Step.Refusal e

namespace Reads

variable {x : Fallible α} {good good' untold untold' : Prop}

theorem of_ok {a : α} (hx : x = .ok a) (hgood : good) (htold : ¬untold) : Reads x good untold where
  accepts := iff_of_true ⟨a, hx⟩ hgood
  fails := iff_of_false (by simp [hx]) htold
  refuses := by simp [hx]

theorem of_refused {message : String} (hx : x = .error (.config message)) (hgood : ¬good)
    (htold : ¬untold) : Reads x good untold where
  accepts := iff_of_false (by simp [hx]) hgood
  fails := iff_of_false (by simp [hx]) htold
  refuses e he := by
    cases hx.symm.trans he
    exact .flaw message

theorem of_untold (hx : x = .error .unwritable) (hgood : ¬good) (hu : untold) :
    Reads x good untold where
  accepts := iff_of_false (by simp [hx]) hgood
  fails := iff_of_true hx hu
  refuses e he := by
    cases hx.symm.trans he
    exact .untold

theorem congr (h : Reads x good untold) (hgood : good ↔ good') (hu : untold ↔ untold') :
    Reads x good' untold' where
  accepts := h.accepts.trans hgood
  fails := h.fails.trans hu
  refuses := h.refuses

/-- What goes wrong in the same way is as good and can be told as well. -/
theorem error {e : Fault} {y : Fallible β} (h : Reads x good untold) (hx : x = .error e)
    (hy : y = .error e) : Reads y good untold where
  accepts := by
    subst hx hy
    simpa using h.accepts
  fails := by
    subst hx hy
    simpa using h.fails
  refuses e' he' := h.refuses e' (by
    cases hy.symm.trans he'
    exact hx)

/-- A reading in two parts: the second part is looked at if the first one is good. -/
theorem bind {next : α → Fallible β} (h : Reads x good untold)
    (hnext : ∀ a, x = .ok a → Reads (next a) good' untold') :
    Reads (x >>= next) (good ∧ good') (untold ∨ good ∧ untold') := by
  cases hx : x with
  | ok a =>
    have hgood : good := h.accepts.mp ⟨a, hx⟩
    have htold : ¬untold := fun hu => by cases hx.symm.trans (h.fails.mpr hu)
    exact (hnext a hx).congr (by simp [hgood]) (by simp [hgood, htold])
  | error e =>
    have hbad : ¬good := fun hgood => by
      obtain ⟨a, ha⟩ := h.accepts.mpr hgood
      cases hx.symm.trans ha
    exact (h.error hx rfl).congr (by simp [hbad]) (by simp [hbad])

theorem map (h : Reads x good untold) (f : α → β) : Reads (x.map f) good untold := by
  cases hx : x with
  | ok a =>
    refine .of_ok rfl (h.accepts.mp ⟨a, hx⟩) fun hu => ?_
    cases hx.symm.trans (h.fails.mpr hu)
  | error e => exact h.error hx rfl

end Reads

/-- The first element of a list that is not good is one that cannot be told. -/
def FirstOf (good untold : Value → Prop) : List Value → Prop
  | [] => False
  | v :: vs => untold v ∨ good v ∧ FirstOf good untold vs

/-! ## Actions -/

namespace Action

/-- The values are mappings with one key each. -/
def Single (vs : List Value) : Prop :=
  ∀ x ∈ vs, ∃ entry, x = .mapping [entry]

/-- A value lists actions; what counts as false lists none. -/
def Listed (v : Value) : Prop :=
  v.truth = false ∨ ∃ vs, v = .list vs ∧ Single vs

theorem ofItems_accepts {path : String} {i : Nat} {vs : List Value} :
    (∃ as, ofItems path i vs = .ok as) ↔ Single vs := by
  fun_induction ofItems path i vs with
  | case1 => simp [Single]
  | case2 i id payload vs ih =>
    have hhead : ∃ entry, Value.mapping [(id, payload)] = .mapping [entry] := ⟨_, rfl⟩
    rw [Single, List.forall_mem_cons, and_iff_right hhead, ← Single, ← ih]
    cases ofItems path (i + 1) vs with
    | ok as => simp [Except.map]
    | error e => simp [Except.map]
  | case3 i v vs hne =>
    refine iff_of_false (by simp) fun h => ?_
    obtain ⟨⟨id, payload⟩, rfl⟩ := h v (by simp)
    exact hne id payload rfl

theorem listOf_accepts {path : String} {v : Value} :
    (∃ as, listOf path v = .ok as) ↔ ∃ vs, v = .list vs ∧ Single vs := by
  cases v with
  | list vs => simp [listOf, ofItems_accepts]
  | _ => simp [listOf]

/-- Where actions may be left out, anything that counts as false leaves them out. -/
theorem listOf_orElse_accepts {path : String} {v : Value} :
    (∃ as, listOf path (v.orElse (.list [])) = .ok as) ↔ Listed v := by
  unfold Value.orElse Listed
  cases hv : v.truth with
  | true => simp [listOf_accepts]
  | false => simp [listOf, ofItems]

end Action

/-! ## Steps -/

namespace Step

/-- The fields that every step is read from are as they should be. -/
structure Shaped (raw : Entries) : Prop where
  actions : Action.Listed (raw.fieldD "actions")
  fallback : Action.Listed (raw.fieldD "fallback")
  condition : Condition.Expression (raw.fieldD "condition")

theorem ofEntries_accepts {path : String} {raw : Entries} :
    (∃ s, ofEntries path raw = .ok s) ↔ Shaped raw := by
  have hactions := @Action.listOf_orElse_accepts (path ++ ".actions") (raw.fieldD "actions")
  have hcondition := @Condition.validate_eq_ok_iff (path ++ ".condition") (raw.fieldD "condition")
  have hfallback := @Action.listOf_accepts (path ++ ".fallback") (raw.fieldD "fallback")
  have hshaped : Shaped raw ↔ Action.Listed (raw.fieldD "actions") ∧
      Action.Listed (raw.fieldD "fallback") ∧ Condition.Expression (raw.fieldD "condition") :=
    ⟨fun h => ⟨h.actions, h.fallback, h.condition⟩, fun ⟨ha, hf, hc⟩ => ⟨ha, hf, hc⟩⟩
  rw [hshaped, ← hactions, ← hcondition, Action.Listed, ← hfallback]
  unfold ofEntries
  simp only [bind, Except.bind, pure, Except.pure]
  cases Condition.validate (path ++ ".condition") (raw.fieldD "condition") with
  | error e => simp
  | ok u =>
  cases Action.listOf (path ++ ".actions") ((raw.fieldD "actions").orElse (.list [])) with
  | error e => simp
  | ok as =>
  cases (raw.fieldD "fallback").truth with
  | false => simp
  | true => cases Action.listOf (path ++ ".fallback") (raw.fieldD "fallback") <;> simp

/-- A value describes a step, by its actions or by its type, which has to have a text then. -/
inductive Formed : Value → Prop
  | plain {raw : Entries} (htyped : isTyped raw = false) (h : Shaped raw) : Formed (.mapping raw)
  | typed {raw : Entries} (htyped : isTyped raw = true)
    (told : (raw.fieldD "type").writable = true)
    (h : Shaped (actionForm (raw.fieldD "type").text raw)) : Formed (.mapping raw)

/-- A value would be a step by its type, but the type cannot be written. -/
inductive Untold : Value → Prop
  | mk {raw : Entries} (htyped : isTyped raw = true) (h : (raw.fieldD "type").writable = false) :
    Untold (.mapping raw)

/-- What a typed step is run under is what it says itself. -/
theorem actionForm_condition (type : String) (raw : Entries) :
    (actionForm type raw).fieldD "condition" = raw.fieldD "condition" := by
  unfold actionForm Entries.fieldD
  dsimp only
  split
  · rw [Entries.field?_put, if_neg (by decide), Entries.field?_put, if_neg (by decide), field?_picked]
    rfl
  · rw [Entries.field?_put, if_neg (by decide), field?_picked]
    rfl

/-- The instruction that takes the place of a missing fallback is one action. -/
theorem actionForm_fallback_listed (type : String) (raw : Entries) :
    Action.Listed ((actionForm type raw).fieldD "fallback") ↔
      Action.Listed (raw.fieldD "fallback") := by
  unfold actionForm Entries.fieldD
  dsimp only
  split
  · next hhelper =>
    rw [Bool.and_eq_true, Bool.not_eq_true'] at hhelper
    rw [Entries.field?_put, if_pos rfl, Entries.has_eq_false_iff.mp hhelper.2]
    exact iff_of_true (.inr ⟨_, rfl, List.forall_mem_singleton.mpr ⟨_, rfl⟩⟩) (.inl rfl)
  · rw [Entries.field?_put, if_neg (by decide), field?_picked]
    rfl

/-- Of a typed step only the type, the condition and the fallback can be wrong: it has its one action
whatever else is in it. -/
theorem shaped_actionForm {type : String} {raw : Entries} : Shaped (actionForm type raw) ↔
    Action.Listed (raw.fieldD "fallback") ∧ Condition.Expression (raw.fieldD "condition") := by
  have hactions : Action.Listed ((actionForm type raw).fieldD "actions") := by
    rw [actionForm_actions]
    exact .inr ⟨_, rfl, List.forall_mem_singleton.mpr ⟨_, rfl⟩⟩
  constructor
  · intro h
    exact ⟨(actionForm_fallback_listed type raw).mp h.fallback,
      actionForm_condition type raw ▸ h.condition⟩
  · rintro ⟨hfallback, hcondition⟩
    refine ⟨hactions, (actionForm_fallback_listed type raw).mpr hfallback, ?_⟩
    rwa [actionForm_condition]

/-- Of a mapping with a type it can be told from its own fields whether it describes a step. -/
theorem formed_typed {raw : Entries} (htyped : isTyped raw = true) : Formed (.mapping raw) ↔
    (raw.fieldD "type").writable = true ∧ Action.Listed (raw.fieldD "fallback") ∧
      Condition.Expression (raw.fieldD "condition") := by
  constructor
  · rintro (⟨hplain, -⟩ | ⟨-, told, h⟩)
    · cases htyped.symm.trans hplain
    · exact ⟨told, shaped_actionForm.mp h⟩
  · rintro ⟨told, h⟩
    exact .typed htyped told (shaped_actionForm.mpr h)

theorem formed_plain {raw : Entries} (htyped : isTyped raw = false) :
    Formed (.mapping raw) ↔ Shaped raw := by
  constructor
  · rintro (⟨-, h⟩ | ⟨htrue, -⟩)
    · exact h
    · cases htyped.symm.trans htrue
  · exact .plain htyped

theorem ofEntries_reads (path : String) (raw : Entries) :
    Reads (ofEntries path raw) (Shaped raw) False := by
  rcases ofEntries_cases path raw with ⟨s, hs, -⟩ | ⟨message, hm⟩
  · exact .of_ok hs (ofEntries_accepts.mp ⟨s, hs⟩) id
  · refine .of_refused hm (fun h => ?_) id
    obtain ⟨s, hs⟩ := (@ofEntries_accepts path raw).mpr h
    cases hm.symm.trans hs

theorem ofValue_reads (path : String) (v : Value) :
    Reads (ofValue path v) (Formed v) (Untold v) := by
  cases v with
  | mapping raw =>
    cases htyped : isTyped raw with
    | false =>
      rw [ofValue_plain htyped]
      refine (ofEntries_reads path raw).congr (formed_plain htyped).symm (iff_of_false id ?_)
      rintro ⟨htrue, -⟩
      cases htyped.symm.trans htrue
    | true =>
      cases hw : (Entries.fieldD "type" raw).writable with
      | true =>
        rw [ofValue_typed htyped hw]
        refine (ofEntries_reads path _).congr ?_ (iff_of_false id ?_)
        · rw [formed_typed htyped, shaped_actionForm, and_iff_right hw]
        · rintro ⟨-, hfalse⟩
          cases hw.symm.trans hfalse
      | false =>
        refine .of_untold (ofValue_untold htyped hw) (fun h => ?_) (.mk htyped hw)
        cases hw.symm.trans ((formed_typed htyped).mp h).1
  | _ => exact .of_refused rfl (by rintro ⟨⟩) (by rintro ⟨⟩)

example (path : String) {type : Value} (hw : type.writable = false) :
    ofValue path (.mapping [(.str "type", type)]) = .error .unwritable := by
  have htype : Entries.fieldD "type" [(.str "type", type)] = type := by cbv
  exact (ofValue_reads path _).fails.mpr (.mk (by cbv) (by rwa [htype]))

theorem ofItems_reads (path : String) (i : Nat) (vs : List Value) :
    Reads (ofItems path i vs) (∀ v ∈ vs, Formed v) (FirstOf Formed Untold vs) := by
  induction vs generalizing i with
  | nil => exact .of_ok rfl (by simp) id
  | cons v vs ih =>
    have heq : ofItems path i (v :: vs) = ofValue (path ++ "[" ++ toString i ++ "]") v >>= fun s =>
        (ofItems path (i + 1) vs).map (s :: ·) := by
      rw [ofItems]
      cases ofValue (path ++ "[" ++ toString i ++ "]") v <;> rfl
    rw [heq, List.forall_mem_cons]
    exact (ofValue_reads _ v).bind fun s _ => (ih (i + 1)).map _

/-- A value lists steps; null lists none. -/
def Listed (v : Value) : Prop :=
  v = .null ∨ ∃ vs, v = .list vs ∧ ∀ x ∈ vs, Formed x

/-- A value lists steps of which the first one that is not well-formed has a type without a text. -/
def ListsUntold (v : Value) : Prop :=
  ∃ vs, v = .list vs ∧ FirstOf Formed Untold vs

theorem listOf_reads (path : String) (v : Value) :
    Reads (listOf path v) (Listed v) (ListsUntold v) := by
  cases v with
  | null => exact .of_ok rfl (.inl rfl) (by simp [ListsUntold])
  | list vs => exact (ofItems_reads path 0 vs).congr (by simp [Listed]) (by simp [ListsUntold])
  | _ => exact .of_refused rfl (by simp [Listed]) (by simp [ListsUntold])

end Step

/-! ## Systems -/

namespace OperatingSystem

/-- A value describes a system: it has a name, and lists steps if it says anything about them. -/
def Formed (v : Value) : Prop :=
  ∃ raw, v = .mapping raw ∧ (Entries.fieldD "name" raw).truth = true ∧
    Step.Listed (Entries.fieldD "steps" raw)

/-- A value describes a system but for the steps, of which the first one that is not well-formed has a
type without a text. -/
def Untold (v : Value) : Prop :=
  ∃ raw, v = .mapping raw ∧ (Entries.fieldD "name" raw).truth = true ∧
    Step.ListsUntold (Entries.fieldD "steps" raw)

theorem ofValue_reads (path : String) (v : Value) :
    Reads (ofValue path v) (Formed v) (Untold v) := by
  cases v with
  | mapping raw =>
    cases hname : (Entries.fieldD "name" raw).truth with
    | false =>
      have hread : ofValue path (.mapping raw) = .error (.config (path ++ ".name is required")) := by
        rw [ofValue, hname]
        rfl
      exact .of_refused hread (by simp [Formed, hname]) (by simp [Untold, hname])
    | true =>
      have hread : ofValue path (.mapping raw) =
          (Step.listOf (path ++ ".steps") (Entries.fieldD "steps" raw)).map (⟨raw, ·⟩) := by
        rw [ofValue, if_pos hname]
      rw [hread]
      exact ((Step.listOf_reads _ _).map _).congr (by simp [Formed, hname])
        (by simp [Untold, hname])
  | _ => exact .of_refused rfl (by simp [Formed]) (by simp [Untold])

theorem ofItems_reads (i : Nat) (vs : List Value) :
    Reads (ofItems i vs) (∀ v ∈ vs, Formed v) (FirstOf Formed Untold vs) := by
  induction vs generalizing i with
  | nil => exact .of_ok rfl (by simp) id
  | cons v vs ih =>
    have heq : ofItems i (v :: vs) =
        ofValue ("operating_systems[" ++ toString i ++ "]") v >>= fun os =>
          (ofItems (i + 1) vs).map (os :: ·) := by
      rw [ofItems]
      cases ofValue ("operating_systems[" ++ toString i ++ "]") v <;> rfl
    rw [heq, List.forall_mem_cons]
    exact (ofValue_reads _ v).bind fun os _ => (ih (i + 1)).map _

end OperatingSystem

/-! ## Devices -/

namespace Device

/-- What every device document has to say: the names of the device, and a list of systems, which may
be left out. -/
structure Headed (raw : Entries) (systems : List Value) : Prop where
  name : (raw.fieldD "name").truth = true
  codename : (raw.fieldD "codename").truth = true
  systems : (raw.fieldD "operating_systems").orElse (.list []) = .list systems

/-- What a document says about handlers is as it should be: nothing, or a mapping that describes a step
if it says how to unlock the bootloader. -/
def Handled (v : Value) : Prop :=
  v.truth = false ∨ ∃ hs, v = .mapping hs ∧
    ((Entries.fieldD "bootloader_locked" hs).truth = false ∨
      Step.Formed (Entries.fieldD "bootloader_locked" hs))

/-- What a document says about handlers would describe a step if the type of the step had a text. -/
def Untellable (v : Value) : Prop :=
  ∃ hs, v = .mapping hs ∧ Step.Untold (Entries.fieldD "bootloader_locked" hs)

/-- A value describes a device. -/
def Formed (v : Value) : Prop :=
  ∃ raw systems, v = .mapping raw ∧ Headed raw systems ∧ (∀ x ∈ systems, OperatingSystem.Formed x) ∧
    Handled (Entries.fieldD "handlers" raw)

/-- Something that counts as true but is no mapping. -/
def Unkeyed (v : Value) : Prop :=
  v.truth = true ∧ ∀ es, v ≠ .mapping es

/-- A value fails to be read: what should be its handlers is neither left out nor a mapping. -/
def Misread (v : Value) : Prop :=
  ∃ raw systems, v = .mapping raw ∧ Headed raw systems ∧ Unkeyed (Entries.fieldD "handlers" raw)

/-- A value would describe a device if the type of one of its steps had a text: there is nothing to be
refused before that step, be it in a system or under the handlers, which are looked at last. -/
def Untold (v : Value) : Prop :=
  ∃ raw systems, v = .mapping raw ∧ Headed raw systems ∧ ¬Unkeyed (Entries.fieldD "handlers" raw) ∧
    (FirstOf OperatingSystem.Formed OperatingSystem.Untold systems ∨
      (∀ x ∈ systems, OperatingSystem.Formed x) ∧ Untellable (Entries.fieldD "handlers" raw))

theorem require_cases (raw : Entries) (name : String) :
    ((raw.fieldD name).truth = true ∧ require raw name = .ok ()) ∨
      ((raw.fieldD name).truth = false ∧ ∃ message, require raw name = .error (.config message)) := by
  unfold require
  cases (raw.fieldD name).truth with
  | true => exact .inl ⟨rfl, rfl⟩
  | false => exact .inr ⟨rfl, _, rfl⟩

theorem defaultUnlock_formed : Step.Formed defaultUnlock := by
  have hread : Step.ofValue "" defaultUnlock = .ok {
      actions := [.named "fastboot:oem_unlock"]
      raw := [(.str "actions", .list [.ofFields [("fastboot:oem_unlock", .null)]])] } := by cbv
  exact (Step.ofValue_reads "" defaultUnlock).accepts.mp ⟨_, hread⟩

theorem defaultUnlock_told : ¬Step.Untold defaultUnlock := by
  rintro ⟨htyped, -⟩
  have hplain : Step.isTyped [(.str "actions", .list [.ofFields [("fastboot:oem_unlock", .null)]])] =
      false := by cbv
  cases hplain.symm.trans htyped

/-- A step that is described by its type is not left out. -/
theorem truth_of_untold {v : Value} (h : Step.Untold v) : v.truth = true := by
  obtain ⟨htyped, -⟩ := h
  next raw =>
    cases raw with
    | nil => cases htyped
    | cons entry raw => rfl

/-- A step is looked up among handlers that are a mapping, and nowhere else. -/
theorem unlockValue_cases (raw : Entries) :
    (∃ unlock, unlockValue raw = .ok unlock ∧ ¬Unkeyed (raw.fieldD "handlers") ∧
      (Handled (raw.fieldD "handlers") ↔ Step.Formed unlock) ∧
      (Untellable (raw.fieldD "handlers") ↔ Step.Untold unlock)) ∨
    (unlockValue raw = .error .mistyped ∧ Unkeyed (raw.fieldD "handlers")) := by
  unfold unlockValue Handled Unkeyed Untellable
  generalize raw.fieldD "handlers" = handlers
  cases htruth : handlers.truth with
  | false =>
    refine .inl ⟨defaultUnlock, ?_, by simp, iff_of_true (.inl rfl) defaultUnlock_formed,
      iff_of_false ?_ defaultUnlock_told⟩
    · rw [Value.orElse, htruth, if_neg Bool.false_ne_true]
      rfl
    · rintro ⟨hs, rfl, huntold⟩
      cases hs with
      | nil => cases truth_of_untold huntold
      | cons entry hs => cases htruth
  | true =>
    rw [Value.orElse, htruth, if_pos rfl]
    cases handlers with
    | mapping hs =>
      refine .inl ⟨_, rfl, by simp, ?_⟩
      unfold Value.orElse
      cases hlocked : (Entries.fieldD "bootloader_locked" hs).truth with
      | false =>
        have htold : ¬Step.Untold (Entries.fieldD "bootloader_locked" hs) := fun h => by
          cases hlocked.symm.trans (truth_of_untold h)
        simp [hlocked, defaultUnlock_formed, defaultUnlock_told, htold]
      | true => simp [hlocked]
    | _ => exact .inr ⟨rfl, rfl, by simp⟩

/-- A document that says what every one has to say is read part by part. -/
theorem ofEntries_of_headed {raw : Entries} {systems : List Value} (h : Headed raw systems) :
    ofEntries raw = do
      let unlock ← unlockValue raw
      let operatingSystems ← OperatingSystem.ofItems 0 systems
      let unlockStep ← Step.ofValue "handlers.bootloader_locked" unlock
      return { raw, operatingSystems, unlockStep } := by
  unfold ofEntries require
  rw [if_pos h.name, if_pos h.codename, h.systems]
  rfl

theorem ofEntries_of_not_headed {raw : Entries} (h : ∀ systems, ¬Headed raw systems) :
    ∃ message, ofEntries raw = .error (.config message) := by
  unfold ofEntries
  rcases require_cases raw "name" with ⟨hname, heq⟩ | ⟨-, message, heq⟩
  · rcases require_cases raw "codename" with ⟨hcodename, heq'⟩ | ⟨-, message, heq'⟩
    · rw [heq, heq']
      simp only [bind, Except.bind]
      split
      · next systems hsystems => exact absurd ⟨hname, hcodename, hsystems⟩ (h systems)
      · exact ⟨_, rfl⟩
    · rw [heq, heq']
      exact ⟨message, rfl⟩
  · rw [heq]
    exact ⟨message, rfl⟩

/-- What is read of a device once its handlers are known to be a mapping, or to be left out. -/
theorem ofEntries_cases {raw : Entries} {systems : List Value} (h : Headed raw systems) :
    (ofEntries raw = .error .mistyped ∧ Unkeyed (raw.fieldD "handlers")) ∨
    (¬Unkeyed (raw.fieldD "handlers") ∧
      Reads (ofEntries raw)
        ((∀ x ∈ systems, OperatingSystem.Formed x) ∧ Handled (raw.fieldD "handlers"))
        (FirstOf OperatingSystem.Formed OperatingSystem.Untold systems ∨
          (∀ x ∈ systems, OperatingSystem.Formed x) ∧ Untellable (raw.fieldD "handlers"))) := by
  rw [ofEntries_of_headed h]
  rcases unlockValue_cases raw with ⟨unlock, heq, hkeyed, hhandled, huntellable⟩ | ⟨heq, hunkeyed⟩
  · rw [heq, hhandled, huntellable]
    exact .inr ⟨hkeyed, (OperatingSystem.ofItems_reads 0 systems).bind fun read _ =>
      (Step.ofValue_reads "handlers.bootloader_locked" unlock).map _⟩
  · rw [heq]
    exact .inl ⟨rfl, hunkeyed⟩

theorem Headed.unique {raw : Entries} {systems systems' : List Value} (h : Headed raw systems)
    (h' : Headed raw systems') : systems = systems' :=
  Value.list.inj (h.systems.symm.trans h'.systems)

theorem formed_of_headed {raw : Entries} {systems : List Value} (h : Headed raw systems) :
    Formed (.mapping raw) ↔
      (∀ x ∈ systems, OperatingSystem.Formed x) ∧ Handled (raw.fieldD "handlers") := by
  constructor
  · rintro ⟨_, systems', ⟨⟩, h', hsystems, hhandled⟩
    cases h.unique h'
    exact ⟨hsystems, hhandled⟩
  · rintro ⟨hsystems, hhandled⟩
    exact ⟨raw, systems, rfl, h, hsystems, hhandled⟩

theorem misread_of_headed {raw : Entries} {systems : List Value} (h : Headed raw systems) :
    Misread (.mapping raw) ↔ Unkeyed (raw.fieldD "handlers") := by
  constructor
  · rintro ⟨_, _, ⟨⟩, -, hunkeyed⟩
    exact hunkeyed
  · exact fun hunkeyed => ⟨raw, systems, rfl, h, hunkeyed⟩

theorem untold_of_headed {raw : Entries} {systems : List Value} (h : Headed raw systems) :
    Untold (.mapping raw) ↔ ¬Unkeyed (raw.fieldD "handlers") ∧
      (FirstOf OperatingSystem.Formed OperatingSystem.Untold systems ∨
        (∀ x ∈ systems, OperatingSystem.Formed x) ∧ Untellable (raw.fieldD "handlers")) := by
  constructor
  · rintro ⟨_, systems', ⟨⟩, h', huntold⟩
    cases h.unique h'
    exact huntold
  · exact fun huntold => ⟨raw, systems, rfl, h, huntold⟩

theorem Handled.not_unkeyed {v : Value} (h : Handled v) : ¬Unkeyed v := by
  rintro ⟨htruth, hne⟩
  rcases h with hfalse | ⟨es, rfl, -⟩
  · cases htruth.symm.trans hfalse
  · exact hne es rfl

/-- A document is read exactly if it describes a device. It fails exactly if something that is no mapping
stands in the place of its handlers, or if the first thing in it that is not as it should be is the type
of a step, which cannot be written; and it is refused as a fault of the document in every other case. -/
theorem ofValue_outcomes (v : Value) :
    ((∃ d, ofValue v = .ok d) ↔ Formed v) ∧ (ofValue v = .error .mistyped ↔ Misread v) ∧
      (ofValue v = .error .unwritable ↔ Untold v) ∧
      (¬Formed v → ¬Misread v → ¬Untold v → ∃ message, ofValue v = .error (.config message)) := by
  -- What is refused in the first place is none of the three.
  have refused (hv : ∀ raw systems, v = .mapping raw → ¬Headed raw systems)
      (h : ∃ message, ofValue v = .error (.config message)) :
      ((∃ d, ofValue v = .ok d) ↔ Formed v) ∧ (ofValue v = .error .mistyped ↔ Misread v) ∧
        (ofValue v = .error .unwritable ↔ Untold v) ∧
        (¬Formed v → ¬Misread v → ¬Untold v → ∃ message, ofValue v = .error (.config message)) := by
    obtain ⟨message, hm⟩ := h
    refine ⟨iff_of_false (by simp [hm]) ?_, iff_of_false (by simp [hm]) ?_,
      iff_of_false (by simp [hm]) ?_, fun _ _ _ => ⟨message, hm⟩⟩
    all_goals
      rintro ⟨raw, systems, hraw, hheaded, -⟩
      exact hv raw systems hraw hheaded
  cases v with
  | mapping raw =>
    by_cases hheaded : ∃ systems, Headed raw systems
    · obtain ⟨systems, h⟩ := hheaded
      rw [formed_of_headed h, misread_of_headed h, untold_of_headed h]
      rcases ofEntries_cases h with ⟨hm, hunkeyed⟩ | ⟨hkeyed, hreads⟩
      · have hread : ofValue (.mapping raw) = .error .mistyped := hm
        exact ⟨iff_of_false (by simp [hread]) fun hformed => hformed.2.not_unkeyed hunkeyed,
          iff_of_true hread hunkeyed, iff_of_false (by simp [hread]) fun huntold => huntold.1 hunkeyed,
          fun _ hnot => absurd hunkeyed hnot⟩
      · refine ⟨hreads.accepts, iff_of_false (fun hread => ?_) hkeyed,
          hreads.fails.trans (and_iff_right hkeyed).symm, fun hnot _ htold => ?_⟩
        · cases hreads.refuses _ hread
        · cases hread : ofEntries raw with
          | ok d => exact absurd (hreads.accepts.mp ⟨d, hread⟩) hnot
          | error e =>
            cases hreads.refuses e hread with
            | flaw message => exact ⟨message, hread⟩
            | untold => exact absurd ⟨hkeyed, hreads.fails.mp hread⟩ htold
    · refine refused (fun raw' systems hraw h => ?_) (ofEntries_of_not_headed (not_exists.mp hheaded))
      cases hraw
      exact hheaded ⟨systems, h⟩
  | _ => exact refused (fun raw systems hraw => nomatch hraw) ⟨_, rfl⟩

/-- A document with one typed step is read, and so it describes a device; without the codename it is
refused. -/
theorem typed_document_outcomes :
    let system : Value := .ofFields [("name", .str "Ubuntu Touch"),
      ("steps", .list [.ofFields [("type", .str "adb:format"), ("partition", .str "cache")]])]
    let v : Value := .ofFields [("name", .str "Yggdrasil"), ("codename", .str "yggdrasil"),
      ("operating_systems", .list [system])]
    let nameless : Value := .ofFields [("name", .str "Yggdrasil"),
      ("operating_systems", .list [system])]
    (ofValue v).isOk = true ∧ Formed v ∧ ¬Formed nameless ∧ ¬Misread nameless ∧
      ¬Untold nameless ∧ ∃ message, ofValue nameless = .error (.config message) := by
  intro system v nameless
  have hread : (ofValue v).isOk = true := by cbv
  have hrefused : ofValue nameless = .error (.config "device config: codename is required") := by
    cbv
  have hformed : ¬Formed nameless := fun h => by
    obtain ⟨d, hd⟩ := (ofValue_outcomes nameless).1.mpr h
    cases hrefused.symm.trans hd
  have hmisread : ¬Misread nameless := fun h => by
    cases hrefused.symm.trans ((ofValue_outcomes nameless).2.1.mpr h)
  have htold : ¬Untold nameless := fun h => by
    cases hrefused.symm.trans ((ofValue_outcomes nameless).2.2.1.mpr h)
  refine ⟨hread, (ofValue_outcomes v).1.mp ?_, hformed, hmisread, htold,
    (ofValue_outcomes nameless).2.2.2 hformed hmisread htold⟩
  cases hv : ofValue v with
  | ok d => exact ⟨d, rfl⟩
  | error e =>
    rw [hv] at hread
    cases hread

/-- A list in the place of the handlers is neither taken for a mapping nor refused. -/
theorem listed_handlers_fail :
    let v : Value := .ofFields [("name", .str "Yggdrasil"), ("codename", .str "yggdrasil"),
      ("handlers", .list [.str "bootloader_locked"])]
    ofValue v = .error .mistyped ∧
      ¬((∃ d, ofValue v = .ok d) ∨ ∃ message, ofValue v = .error (.config message)) := by
  intro v
  have hread : ofValue v = .error .mistyped := by cbv
  exact ⟨hread, by simp [hread]⟩

end Device

end Reflash
