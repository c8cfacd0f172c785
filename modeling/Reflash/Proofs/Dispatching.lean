import Reflash.Proofs.HeldSteps
import Reflash.Proofs.Orders
import Reflash.Proofs.Pairs

set_option autoImplicit false

/-! # Exact dispatch

An identifier is split where its handler is looked up and where the action is taken apart, and put
together where the actions are listed. An identifier names a verb of a namespace if they stand before and
after its first colon (`ActionTable.Names`); the two splits and the join agree with that for plugins in
good order (`ActionTable.Regular`), so their table finds the handlers that were registered and no others,
and lists each once (`ActionTable.Regular.handler?_eq_some_iff`,
`ActionTable.Regular.mem_actionIds_iff`, `ActionTable.Regular.actionIds_nodup`).

To carry out a value is then one call of the handler that its only key names, and what follows from how
the call ends (`Flow.afterCall`); every other value is an unknown action, and nothing happens
(`ActionTable.dispatch_exact`). -/

namespace Reflash

open Run

variable {σ : Type}

/-! ## Names -/

namespace ActionTable

/-- The identifier names a verb of a namespace: they stand before and after its first colon. -/
def Names (id ns verb : String) : Prop :=
  id = ns ++ ":" ++ verb ∧ ':' ∉ ns.toList

theorem names_iff {id ns verb : String} :
    Names id ns verb ↔ Text.splitFirst ':' id = some (ns, verb) := by
  rw [Text.splitFirst_eq_some_iff]
  rfl

theorem Names.unique {id ns ns' verb verb' : String} (h : Names id ns verb)
    (h' : Names id ns' verb') : ns = ns' ∧ verb = verb' := by
  have heq : some (ns, verb) = some (ns', verb') := (names_iff.mp h).symm.trans (names_iff.mp h')
  simpa using heq

theorem Names.splitId_eq {id ns verb : String} (h : Names id ns verb) : splitId id = (ns, verb) := by
  rw [splitId, names_iff.mp h]
  rfl

/-- An identifier without a colon names no verb that has a name. -/
theorem names_of_splitId {id ns verb : String} (h : splitId id = (ns, verb)) (hverb : verb ≠ "") :
    Names id ns verb := by
  rw [names_iff]
  unfold splitId at h
  cases hs : Text.splitFirst ':' id with
  | none =>
    rw [hs] at h
    cases h
    contradiction
  | some p =>
    rw [hs] at h
    exact congrArg some h

/-! ## Verbs -/

theorem distinctVerbs_eq_foldl (verbs : Verbs σ) : distinctVerbs verbs = verbs.foldl Pairs.store [] :=
  rfl

/-- A verb that is there more than once has its last handler. -/
theorem lookup_distinctVerbs (verbs : Verbs σ) (name : String) :
    (distinctVerbs verbs).lookup name = verbs.reverse.lookup name := by
  rw [distinctVerbs_eq_foldl, Pairs.lookup_foldl_store, List.lookup_nil, Option.or_none]

theorem distinctVerbs_nodup (verbs : Verbs σ) : ((distinctVerbs verbs).map Prod.fst).Nodup := by
  have hnil : (([] : Verbs σ).map Prod.fst).Nodup := List.nodup_nil
  exact Pairs.foldl_store_nodup hnil verbs

theorem mem_distinctVerbs {verbs : Verbs σ} {v : String × Option (Handler σ)} :
    v ∈ distinctVerbs verbs ↔ verbs.reverse.lookup v.1 = some v.2 := by
  rw [← lookup_distinctVerbs, Pairs.lookup_eq_some_iff_mem (distinctVerbs_nodup verbs)]

theorem distinctVerbs_of_nodup {verbs : Verbs σ} (h : (verbs.map Prod.fst).Nodup) :
    distinctVerbs verbs = verbs := by
  rw [distinctVerbs_eq_foldl, Pairs.foldl_store_of_nodup h, List.nil_append]

/-! ## Plugins -/

/-- A plugin as the table has it. -/
def enter (plugin : String × Verbs σ) : String × Verbs σ :=
  (plugin.1, distinctVerbs plugin.2)

/-- The table with all of the plugins. -/
def assembled (plugins : List (String × Verbs σ)) : ActionTable σ :=
  ⟨plugins.map enter⟩

theorem map_fst_enter (plugins : List (String × Verbs σ)) :
    (plugins.map enter).map Prod.fst = plugins.map Prod.fst := by
  rw [List.map_map]
  rfl

theorem lookup_map_enter (plugins : List (String × Verbs σ)) (ns : String) :
    (plugins.map enter).lookup ns = (plugins.lookup ns).map distinctVerbs :=
  lookup_map_snd distinctVerbs ns plugins

/-- Plugins are added up to the first one whose namespace is taken. -/
theorem addAll_cases (plugins table : List (String × Verbs σ))
    (h : (table.map Prod.fst).Nodup) :
    ((table.map Prod.fst ++ plugins.map Prod.fst).Nodup ∧
        addAll table plugins = .ok (table ++ plugins.map enter)) ∨
      ∃ ns, 2 ≤ (table.map Prod.fst ++ plugins.map Prod.fst).count ns ∧ addAll table plugins =
        .error (.invalid ("Namespace '" ++ ns ++ "' is already registered")) := by
  induction plugins generalizing table with
  | nil => exact .inl ⟨by simpa using h, by simp [addAll]⟩
  | cons plugin plugins ih =>
    obtain ⟨ns, verbs⟩ := plugin
    unfold addAll
    split
    · next htaken =>
      refine .inr ⟨ns, ?_, rfl⟩
      have hcount := List.count_pos_iff.mpr (Pairs.any_iff.mp htaken)
      rw [List.count_append, List.map_cons, List.count_cons_self]
      omega
    · next hnew =>
      rw [taken, Pairs.any_iff] at hnew
      -- A plugin that moves into the table leaves the namespaces of both together as they were.
      have hnames : (table ++ [(ns, distinctVerbs verbs)]).map Prod.fst ++ plugins.map Prod.fst =
          table.map Prod.fst ++ ((ns, verbs) :: plugins).map Prod.fst := by
        simp
      have hih := ih (table ++ [(ns, distinctVerbs verbs)]) (by simpa using h.concat hnew)
      rw [hnames] at hih
      simpa [enter] using hih

theorem ofPlugins_cases (plugins : List (String × Verbs σ)) :
    ((plugins.map Prod.fst).Nodup ∧ ofPlugins plugins = .ok (assembled plugins)) ∨
      ∃ ns, 2 ≤ (plugins.map Prod.fst).count ns ∧ ofPlugins plugins =
        .error (.invalid ("Namespace '" ++ ns ++ "' is already registered")) := by
  have h := addAll_cases plugins [] List.nodup_nil
  unfold ofPlugins
  rcases h with ⟨hnodup, h⟩ | ⟨ns, hcount, h⟩
  · exact .inl ⟨hnodup, by rw [h]; rfl⟩
  · exact .inr ⟨ns, hcount, by rw [h]; rfl⟩

theorem ofPlugins_fails_iff (plugins : List (String × Verbs σ)) :
    (∃ e, ofPlugins plugins = .error e) ↔ ∃ ns, 2 ≤ (plugins.map Prod.fst).count ns := by
  rcases ofPlugins_cases plugins with ⟨hnodup, h⟩ | ⟨ns, hcount, h⟩
  · rw [h]
    refine ⟨fun ⟨e, he⟩ => (by cases he), fun ⟨ns, hcount⟩ => ?_⟩
    have := List.nodup_iff_count_le_one.mp hnodup ns
    omega
  · exact ⟨fun _ => ⟨ns, hcount⟩, fun _ => ⟨_, h⟩⟩

/-- Plugins in good order: each namespace is there once, and it and all its verbs can be named by an
identifier and have a handler. -/
structure Regular (plugins : List (String × Verbs σ)) : Prop where
  distinct : (plugins.map Prod.fst).Nodup
  namespaces : ∀ p ∈ plugins, p.1 ≠ "" ∧ ':' ∉ p.1.toList
  verbs : ∀ p ∈ plugins, ∀ v ∈ p.2, v.1 ≠ "" ∧ v.2.isSome

/-- Plugins register a handler for a verb of a namespace, the last one if it is there more than once. -/
def Registers (plugins : List (String × Verbs σ)) (ns verb : String) (handler : Handler σ) : Prop :=
  ∃ verbs, (ns, verbs) ∈ plugins ∧ verbs.reverse.lookup verb = some (some handler)

namespace Regular

variable {plugins : List (String × Verbs σ)} (hplugins : Regular plugins)
include hplugins

theorem ofPlugins_eq : ofPlugins plugins = .ok (assembled plugins) := by
  rcases ofPlugins_cases plugins with ⟨-, h⟩ | ⟨ns, hcount, -⟩
  · exact h
  · have := List.nodup_iff_count_le_one.mp hplugins.distinct ns
    omega

theorem verb_ne_empty {ns verb : String} {handler : Handler σ}
    (h : Registers plugins ns verb handler) : verb ≠ "" := by
  obtain ⟨verbs, hns, hverb⟩ := h
  exact (hplugins.verbs _ hns _ (List.mem_reverse.mp (Pairs.mem_of_lookup hverb))).1

theorem ns_ne_empty {ns verb : String} {handler : Handler σ}
    (h : Registers plugins ns verb handler) : ns ≠ "" := by
  obtain ⟨verbs, hns, -⟩ := h
  exact (hplugins.namespaces _ hns).1

/-- The table finds a handler just where the identifier names a verb for which it was registered. -/
theorem handler?_eq_some_iff {id : String} {handler : Handler σ} :
    (assembled plugins).handler? id = some handler ↔
      ∃ ns verb, Names id ns verb ∧ Registers plugins ns verb handler := by
  have hfound (ns verb : String) :
      (((plugins.map enter).lookup ns).bind fun verbs => verbs.lookup verb).join = some handler ↔
        Registers plugins ns verb handler := by
    rw [lookup_map_enter, Option.join_eq_some_iff, Option.bind_eq_some_iff]
    simp only [Option.map_eq_some_iff, Pairs.lookup_eq_some_iff_mem hplugins.distinct]
    constructor
    · rintro ⟨_, ⟨verbs, hns, rfl⟩, hverb⟩
      exact ⟨verbs, hns, lookup_distinctVerbs verbs verb ▸ hverb⟩
    · rintro ⟨verbs, hns, hverb⟩
      exact ⟨_, ⟨verbs, hns, rfl⟩, (lookup_distinctVerbs verbs verb).trans hverb⟩
  unfold handler?
  constructor
  · intro h
    rcases hsplit : splitId id with ⟨ns, verb⟩
    rw [hsplit] at h
    have hreg := (hfound ns verb).mp h
    exact ⟨ns, verb, names_of_splitId hsplit (hplugins.verb_ne_empty hreg), hreg⟩
  · rintro ⟨ns, verb, hnames, hreg⟩
    rw [hnames.splitId_eq]
    exact (hfound ns verb).mpr hreg

/-- The table lists the identifiers that name a verb with a handler. -/
theorem mem_actionIds_iff {id : String} :
    id ∈ (assembled plugins).actionIds ↔
      ∃ ns verb, Names id ns verb ∧ ∃ handler, Registers plugins ns verb handler := by
  unfold actionIds assembled
  simp only [List.mem_flatMap, List.mem_map]
  constructor
  · rintro ⟨_, ⟨⟨ns, verbs⟩, hns, rfl⟩, ⟨verb, handler?⟩, hverb, rfl⟩
    rw [enter, mem_distinctVerbs] at hverb
    have hmem := List.mem_reverse.mp (Pairs.mem_of_lookup hverb)
    obtain ⟨handler, rfl⟩ := Option.isSome_iff_exists.mp (hplugins.verbs _ hns _ hmem).2
    exact ⟨ns, verb, ⟨rfl, (hplugins.namespaces _ hns).2⟩, handler, verbs, hns, hverb⟩
  · rintro ⟨ns, verb, ⟨rfl, -⟩, handler, verbs, hns, hverb⟩
    exact ⟨_, ⟨(ns, verbs), hns, rfl⟩, (verb, some handler), mem_distinctVerbs.mpr hverb, rfl⟩

theorem has_iff_mem {id : String} :
    (assembled plugins).has id = true ↔ id ∈ (assembled plugins).actionIds := by
  rw [hplugins.mem_actionIds_iff, has, Option.isSome_iff_exists]
  simp only [hplugins.handler?_eq_some_iff]
  constructor
  · rintro ⟨handler, ns, verb, hnames, hreg⟩
    exact ⟨ns, verb, hnames, handler, hreg⟩
  · rintro ⟨ns, verb, hnames, handler, hreg⟩
    exact ⟨handler, ns, verb, hnames, hreg⟩

/-- Identifiers of one namespace differ in their verbs, and those of two in the namespace. -/
theorem actionIds_nodup : (assembled plugins).actionIds.Nodup := by
  unfold actionIds assembled
  rw [List.nodup_flatMap]
  refine ⟨fun p hp => ?_, ?_⟩
  · obtain ⟨⟨ns, verbs⟩, hns, rfl⟩ := List.mem_map.mp hp
    have hverbs := distinctVerbs_nodup verbs
    have hids := hverbs.map (f := fun verb => ns ++ ":" ++ verb) fun _ _ h =>
      (String.append_right_inj _).mp h
    rwa [List.map_map] at hids
  · have hdistinct : (plugins.map enter).Pairwise fun p q => p.1 ≠ q.1 := by
      have h := hplugins.distinct
      rwa [← map_fst_enter, List.Nodup, List.pairwise_map] at h
    refine hdistinct.imp_of_mem fun {p q} hp hq hne id hid hid' => ?_
    obtain ⟨⟨ns, verbs⟩, hns, rfl⟩ := List.mem_map.mp hp
    obtain ⟨⟨ns', verbs'⟩, hns', rfl⟩ := List.mem_map.mp hq
    obtain ⟨v, -, rfl⟩ := List.mem_map.mp hid
    obtain ⟨v', -, heq⟩ := List.mem_map.mp hid'
    have hnames : Names (ns ++ ":" ++ v.1) ns v.1 := ⟨rfl, (hplugins.namespaces _ hns).2⟩
    exact hne (hnames.unique ⟨heq.symm, (hplugins.namespaces _ hns').2⟩).1

end Regular

/-- Identifiers are looked up with the failure that names them. -/
theorem lookup_of_not_has {table : ActionTable σ} {id : String} (h : ¬table.has id = true) :
    table.lookup id = .error (.unknownAction id) := by
  unfold has at h
  rw [Option.not_isSome_iff_eq_none] at h
  rw [lookup, h]

end ActionTable

/-! ## The built-in plugins -/

namespace Builtin

open ActionTable

theorem plugins_regular : Regular (plugins : List (String × Verbs σ)) where
  distinct := by
    have hnames : (plugins : List (String × Verbs σ)).map Prod.fst =
        ["core", "adb", "fastboot", "heimdall", "systemimage"] := rfl
    rw [hnames]
    decide
  namespaces := by
    simp only [plugins, List.forall_mem_cons, List.not_mem_nil, false_implies, implies_true, and_true]
    decide
  verbs := by
    simp only [plugins, guideVerbs, fileVerbs, adbVerbs, fastbootVerbs, heimdallVerbs, imageVerbs,
      List.cons_append, List.nil_append, List.forall_mem_cons, List.not_mem_nil, false_implies,
      implies_true, Option.isSome_some, and_true]
    decide

theorem assembled_plugins : assembled (plugins : List (String × Verbs σ)) = table := by
  have henter (p : String × Verbs σ) (h : (p.2.map Prod.fst).Nodup) : enter p = p := by
    rw [enter, distinctVerbs_of_nodup h]
  have hplugins : (plugins : List (String × Verbs σ)).map enter = plugins := by
    refine (List.map_congr_left fun p hp => henter p ?_).trans (List.map_id _)
    simp only [plugins, List.mem_cons, List.not_mem_nil, or_false] at hp
    rcases hp with rfl | rfl | rfl | rfl | rfl
    all_goals
      simp only [guideVerbs, fileVerbs, adbVerbs, fastbootVerbs, heimdallVerbs, imageVerbs,
        List.cons_append, List.nil_append, List.map_cons, List.map_nil]
      decide
  exact congrArg ActionTable.mk hplugins

/-- The built-in table is the one that the built-in plugins make. -/
theorem ofPlugins_plugins : ofPlugins (plugins : List (String × Verbs σ)) = .ok table := by
  rw [plugins_regular.ofPlugins_eq, assembled_plugins]

/-- The built-in actions are listed under the names of the verbs that were registered. -/
theorem mem_actionIds_iff {id : String} : id ∈ (table : ActionTable σ).actionIds ↔
    ∃ ns verb, Names id ns verb ∧
      ∃ handler, Registers (plugins : List (String × Verbs σ)) ns verb handler := by
  rw [← plugins_regular.mem_actionIds_iff, assembled_plugins]

theorem handler?_eq_some_iff {id : String} {handler : Handler σ} :
    table.handler? id = some handler ↔
      ∃ ns verb, Names id ns verb ∧ Registers plugins ns verb handler := by
  rw [← plugins_regular.handler?_eq_some_iff, assembled_plugins]

theorem has_iff_mem {id : String} :
    (table : ActionTable σ).has id = true ↔ id ∈ (table : ActionTable σ).actionIds := by
  rw [← assembled_plugins]
  exact plugins_regular.has_iff_mem

end Builtin

/-! ## Actions -/

namespace Action

/-- An action is taken apart at the first colon of its identifier, unless a part is empty. -/
theorem dispatch_of_names {a : Action} {id ns verb : String} (hid : a.id.shown = .ok id)
    (h : ActionTable.Names id ns verb) (hns : ns ≠ "") (hverb : verb ≠ "") :
    a.dispatch = .ok ⟨id, ns, verb, a.payload⟩ := by
  have hempty : (ns.isEmpty || verb.isEmpty) = false := by simp [hns, hverb]
  obtain ⟨hwritable, rfl⟩ := Value.shown_eq_ok.mp hid
  rw [Flow.dispatch_of_writable hwritable, ActionTable.names_iff.mp h]
  dsimp only
  rw [hempty]
  rfl

/-- What an unknown action is called: its identifier, or the value if it has none. A whole number that is
too long to be written leaves it without a name. -/
def nameOf : Value → Fallible String
  | .mapping [(id, _)] => id.shown
  | v => v.exact

theorem nameOf_error {v : Value} {e : Fault} (h : nameOf v = .error e) :
    e = .unwritable ∧ v.writable = false := by
  unfold nameOf at h
  split at h
  · next id payload =>
    obtain ⟨hid, rfl⟩ := Value.shown_eq_error.mp h
    simp [Value.writable, Value.entriesWritable, hid]
  · exact (Value.exact_eq_error.mp h).symm

end Action

namespace Event

/-- The call of a handler that an event is; those of the steps below an action are not told. -/
def ownCall? : Event → Option (String × String × Value)
  | dispatched ns verb payload => some (ns, verb, payload)
  | _ => none

end Event

namespace Flow

variable (runSteps : List Step → Flow σ Unit) (table : ActionTable σ) (ctx : Context σ)

/-- What an action does once the handler that it called has ended: the steps that were returned are run,
and a failure becomes that of the action. -/
def afterCall (d : Dispatch) : Ending Value → Flow σ Unit
  | .returned v =>
    match substepsOf d v with
    | .ok steps => if steps.isEmpty then return else inPart .substeps (runSteps steps)
    | .error e => Run.raise (asFailureOf d.id e)
  | .raised e => do
    Run.emit (.raised e)
    Run.raise (asFailureOf d.id e)
  | .unfinished => Run.unfinished

/-- After the call of its handler an action calls no handler itself. -/
theorem afterCall_emits (d : Dispatch) (o : Ending Value) :
    (afterCall runSteps d o).Emits fun e => e.ownCall? = none := by
  unfold afterCall
  split
  · split
    · split
      · exact Ensures.pure (by simp)
      · exact inPart_emits rfl (fun _ _ _ _ => rfl) rfl
    · exact Ensures.raise (by simp)
  · exact Emits.bind (Emits.emit rfl) fun _ => Ensures.raise (by simp)
  · exact Ensures.unfinished (by simp)

/-- A handler that was called, and what the action does after it, call no other handler. -/
theorem thereafter_afterCall_calls (job : Job σ Value) (d : Dispatch) :
    ((ofHandler job).thereafter (afterCall runSteps d)).Ensures fun es _ =>
      es.filterMap Event.ownCall? = [] := by
  intro n w
  rw [List.filterMap_eq_nil_iff]
  intro e he
  rcases List.mem_append.mp he with he | he
  · obtain ⟨signal, -, rfl⟩ := List.mem_map.mp he
    rfl
  · exact afterCall_emits runSteps d _ _ _ e he

variable {table}

/-- An action with a handler is one call of the handler and what follows. -/
theorem action_of_handler {a : Action} {d : Dispatch} {handler : Handler σ}
    (ha : a.dispatch = .ok d) (h : table.handler? d.id = some handler) :
    action runSteps table ctx a = Run.emit (.dispatched d.ns d.verb d.payload) >>= fun _ =>
      (ofHandler (handler d.payload ctx)).thereafter (afterCall runSteps d) := by
  rw [action_eq ha]
  funext n w
  rw [bind_apply, Run.rescue, callHandler_apply h]
  rcases hrun : handler d.payload ctx n w with ⟨v | e | _, signals, w'⟩
  all_goals simp only [bind_apply, thereafter, ofHandler, mapEvents, hrun, Run.emit]
  · unfold afterCall
    cases hread : substepsOf d v with
    | ok steps => simp [hread, Run.ofFallible, Run.pure, called, Trail.after]
    | error e => simp [hread, Run.ofFallible, Run.raise, called, Trail.after]
  · have hraised : afterCall runSteps d (.raised e) n w' =
        ⟨.raised (asFailureOf d.id e), [.raised e], w'⟩ := rfl
    simp [hraised, called, Run.raise]
  · simp [afterCall, called, Run.unfinished]

/-- An action without a handler is an unknown action. -/
theorem action_of_unknown {a : Action} {id : String} (hid : a.id.shown = .ok id)
    (h : table.handler? id = none) :
    action runSteps table ctx a = Run.raise (.inAction id (.unknownAction id)) := by
  obtain ⟨hwritable, rfl⟩ := Value.shown_eq_ok.mp hid
  unfold action
  split
  · next e he =>
    rcases dispatch_error he with rfl | ⟨hunwritable, -⟩
    · rfl
    · cases hunwritable.symm.trans hwritable
  · next d hd =>
    have hid := dispatch_id hd
    have hlookup : table.lookup d.id = .error (.unknownAction d.id) := by
      rw [ActionTable.lookup, hid, h]
    rw [callHandler, hlookup, ← hid]
    rfl

/-- A value with one key is carried out as the action that it stands for. -/
theorem actionOfValue_mapping (key payload : Value) :
    actionOfValue runSteps table ctx (.mapping [(key, payload)]) =
      action runSteps table ctx ⟨key, payload⟩ := rfl

/-- A value that has a name, but no only key that names a handler, is an unknown action. -/
theorem actionOfValue_of_unknown {v : Value} {name : String} (hname : Action.nameOf v = .ok name)
    (h : ∀ key payload, v = .mapping [(key, payload)] → table.handler? name = none) :
    actionOfValue runSteps table ctx v = Run.raise (.inAction name (.unknownAction name)) := by
  unfold Action.nameOf at hname
  split at hname
  · next key payload => exact action_of_unknown runSteps ctx hname (h key payload rfl)
  · next hne =>
    have hread : Action.ofValue v = .error (.unknownAction name) := by
      unfold Action.ofValue
      split
      · next key payload => exact absurd rfl (hne key payload)
      · rw [hname]
        rfl
    rw [actionOfValue, hread]
    rfl

/-- A value without a name is not carried out. -/
theorem actionOfValue_of_unnamed {v : Value} (hname : Action.nameOf v = .error .unwritable) :
    actionOfValue runSteps table ctx v = Run.raise .unwritable := by
  unfold Action.nameOf at hname
  split at hname
  · next key payload =>
    have hdispatch : (Action.mk key payload).dispatch = .error .unwritable :=
      dispatch_of_unwritable (Value.shown_eq_error.mp hname).1
    rw [actionOfValue_mapping, action, hdispatch]
    rfl
  · next hne =>
    have hread : Action.ofValue v = .error .unwritable := by
      unfold Action.ofValue
      split
      · next key payload => exact absurd rfl (hne key payload)
      · rw [hname]
        rfl
    rw [actionOfValue, hread]
    rfl

end Flow

namespace ActionTable

/-- Plugins make a table unless a namespace is there twice. A table of plugins in good order lists each
of its actions once, has those that it lists, and looks up the handler that was registered for the verb
and the namespace that an identifier names. Whatever value is carried out, it is one call of the handler
that its only key names, with its payload, and what follows from how this call ends; any other value is an
unknown action, and nothing is called. What remains are values that have no name, since they hold a whole
number that is too long to be written: nothing is called for them either, but they are no action that
could fail. -/
theorem dispatch_exact (plugins : List (String × Verbs σ)) :
    ((∃ e, ofPlugins plugins = .error e) ↔ ∃ ns, 2 ≤ (plugins.map Prod.fst).count ns) ∧
    (∀ e, ofPlugins plugins = .error e → ∃ ns, 2 ≤ (plugins.map Prod.fst).count ns ∧
      e = .invalid ("Namespace '" ++ ns ++ "' is already registered")) ∧
    (Regular plugins → ∃ table, ofPlugins plugins = .ok table ∧ table.actionIds.Nodup ∧
      (∀ id, (table.has id = true ↔ id ∈ table.actionIds) ∧
        (∀ handler, table.lookup id = .ok handler ↔
          ∃ ns verb, Names id ns verb ∧ Registers plugins ns verb handler) ∧
        (id ∉ table.actionIds → table.lookup id = .error (.unknownAction id))) ∧
      ∀ runSteps ctx v,
        (∀ key payload id ns verb handler, v = .mapping [(key, payload)] → key.shown = .ok id →
          Names id ns verb → Registers plugins ns verb handler →
          Flow.actionOfValue runSteps table ctx v =
            (Run.emit (.dispatched ns verb payload) >>= fun _ =>
              (Flow.ofHandler (handler payload ctx)).thereafter
                (Flow.afterCall runSteps ⟨id, ns, verb, payload⟩)) ∧
          (Flow.actionOfValue runSteps table ctx v).Ensures fun es _ =>
            es.filterMap Event.ownCall? = [(ns, verb, payload)]) ∧
        (∀ name, Action.nameOf v = .ok name →
          (∀ key payload, v = .mapping [(key, payload)] → name ∉ table.actionIds) →
          Flow.actionOfValue runSteps table ctx v =
            Run.raise (.inAction name (.unknownAction name))) ∧
        (∀ e, Action.nameOf v = .error e → e = .unwritable ∧ v.writable = false ∧
          Flow.actionOfValue runSteps table ctx v = Run.raise .unwritable)) := by
  refine ⟨?_, ?_, fun hplugins => ⟨_, hplugins.ofPlugins_eq, hplugins.actionIds_nodup,
    fun id => ⟨hplugins.has_iff_mem, fun handler => ?_, fun hid => ?_⟩,
    fun runSteps ctx v => ⟨?_, fun name hname hv => ?_, fun e he => ?_⟩⟩⟩
  · exact ofPlugins_fails_iff plugins
  · intro e he
    rcases ofPlugins_cases plugins with ⟨-, h⟩ | ⟨ns, hcount, h⟩
    · rw [h] at he
      cases he
    · rw [h] at he
      exact ⟨ns, hcount, (Except.error.inj he).symm⟩
  · rw [lookup_eq_ok, hplugins.handler?_eq_some_iff]
  · exact lookup_of_not_has (hplugins.has_iff_mem.not.mpr hid)
  · rintro key payload id ns verb handler rfl hid hnames hreg
    have hdispatch := Action.dispatch_of_names (a := ⟨key, payload⟩) hid hnames
      (hplugins.ns_ne_empty hreg) (hplugins.verb_ne_empty hreg)
    have hhandler := hplugins.handler?_eq_some_iff.mpr ⟨ns, verb, hnames, hreg⟩
    have hcall := Flow.action_of_handler runSteps ctx hdispatch hhandler
    rw [Flow.actionOfValue_mapping, hcall]
    have hcalls := Flow.thereafter_afterCall_calls runSteps (handler payload ctx)
      ⟨id, ns, verb, payload⟩
    refine ⟨rfl, Ensures.emit_bind (hcalls.mono fun es _ h => ?_)⟩
    rw [List.filterMap_cons, h]
    rfl
  · refine Flow.actionOfValue_of_unknown runSteps ctx hname fun key payload heq => ?_
    have hhas := hplugins.has_iff_mem.not.mpr (hv key payload heq)
    rwa [has, Option.not_isSome_iff_eq_none] at hhas
  · obtain ⟨rfl, hunwritable⟩ := Action.nameOf_error he
    exact ⟨rfl, hunwritable, Flow.actionOfValue_of_unnamed runSteps ctx he⟩

/-- A verb may hold a colon: the namespace ends at the first one. -/
theorem colon_verb_dispatched :
    let handler : Handler Unit := fun _ _ => return .null
    let plugins : List (String × Verbs Unit) := [("t", [("a:b", some handler)])]
    Regular plugins ∧ ∃ table, ofPlugins plugins = .ok table ∧ ∀ runSteps ctx,
      Flow.actionOfValue runSteps table ctx (.mapping [(.str "t:a:b", .int 5)]) =
        Run.emit (.dispatched "t" "a:b" (.int 5)) >>= fun _ =>
          (Flow.ofHandler (handler (.int 5) ctx)).thereafter
            (Flow.afterCall runSteps ⟨"t:a:b", "t", "a:b", .int 5⟩) := by
  intro handler plugins
  have hplugins : Regular plugins := by
    refine ⟨by simp [plugins], ?_, ?_⟩
    · intro p hp
      obtain rfl := List.mem_singleton.mp hp
      decide
    · intro p hp v hv
      obtain rfl := List.mem_singleton.mp hp
      obtain rfl := List.mem_singleton.mp hv
      exact ⟨by decide, rfl⟩
  obtain ⟨table, htable, -, -, hcarried⟩ := (dispatch_exact plugins).2.2 hplugins
  have hreg : Registers plugins "t" "a:b" handler := ⟨_, List.mem_singleton_self _, rfl⟩
  refine ⟨hplugins, table, htable, fun runSteps ctx => ?_⟩
  exact ((hcarried runSteps ctx _).1 _ _ _ "t" "a:b" handler rfl rfl ⟨by decide, by decide⟩ hreg).1

/-- With the built-in plugins, a key that is too long to be written is no action that fails, not even an
unknown one. -/
theorem overlong_key_untold :
    let ctx : Context Unit := (Workflow.plain { choice := .retry } []).ctx
    let t := Flow.actionOfValue (fun _ => return) Builtin.table ctx
      (.mapping [(.overlong, .null)]) 0 ()
    Regular (Builtin.plugins : List (String × Verbs Unit)) ∧
      ofPlugins (Builtin.plugins : List (String × Verbs Unit)) = .ok Builtin.table ∧
      t.ending = .raised .unwritable ∧ t.events = [] ∧
      ∀ id c, t.ending ≠ .raised (.inAction id c) := by
  intro ctx t
  have hname : Action.nameOf (.mapping [(.overlong, .null)]) = .error .unwritable :=
    Value.shown_of_unwritable Value.writable_overlong
  have ht : t = Run.raise .unwritable 0 () :=
    congrFun (congrFun (Flow.actionOfValue_of_unnamed _ ctx hname) 0) ()
  rw [ht]
  exact ⟨Builtin.plugins_regular, Builtin.ofPlugins_plugins, rfl, rfl, nofun⟩

end ActionTable

end Reflash
