import Mathlib.Logic.Relation
import Reflash.Proofs.Handlers
import Reflash.Proofs.Keys
import Reflash.Proofs.Reading

set_option autoImplicit false

/-! # Steps inside of steps

An action that groups steps has them in its payload, so the steps inside of a step are smaller than
it is (`Step.groups_wellFounded`), and what is shown of steps can be shown from the inside out. The
other steps that built-in handlers return wait for a device, and have no steps inside. -/

namespace Reflash

open Run

variable {σ : Type}

/-! ## Reading steps -/

namespace Entries

theorem sizeOf_get? {key v : Value} {es : Entries} (h : get? key es = some v) :
    sizeOf v < sizeOf es := by
  induction es with
  | nil => cases h
  | cons e es ih =>
    obtain ⟨k, old⟩ := e
    unfold get? at h
    split at h
    · cases h
      simp only [List.cons.sizeOf_spec, Prod.mk.sizeOf_spec]
      omega
    · have := ih h
      simp only [List.cons.sizeOf_spec, Prod.mk.sizeOf_spec]
      omega

end Entries

theorem Value.orElse_single (v other : Value) : (Value.list [v]).orElse other = .list [v] := rfl

namespace Action

theorem listOf_single (path : String) (entry : Value × Value) :
    listOf path (.list [.mapping [entry]]) = .ok [⟨entry.1, entry.2⟩] := rfl

theorem ofItems_sizeOf {path : String} {i : Nat} {vs : List Value} {as : List Action}
    (h : ofItems path i vs = .ok as) : ∀ a ∈ as, sizeOf a.payload < sizeOf vs := by
  fun_induction ofItems path i vs generalizing as with
  | case1 =>
    cases h
    simp
  | case2 i id payload vs ih =>
    cases hrest : ofItems path (i + 1) vs with
    | error e => simp [hrest, Except.map] at h
    | ok rest =>
      simp only [hrest, Except.map, Except.ok.injEq] at h
      subst h
      simp only [List.mem_cons, forall_eq_or_imp, List.cons.sizeOf_spec, Value.mapping.sizeOf_spec,
        Prod.mk.sizeOf_spec]
      refine ⟨by omega, fun a ha => ?_⟩
      have := ih hrest a ha
      omega
  | case3 => cases h

/-- The payload of an action is smaller than the value that lists the action. -/
theorem listOf_sizeOf {path : String} {v : Value} {as : List Action} (h : listOf path v = .ok as) :
    ∀ a ∈ as, sizeOf a.payload < sizeOf v := by
  unfold listOf at h
  split at h
  · next vs =>
    intro a ha
    have := ofItems_sizeOf h a ha
    simp only [Value.list.sizeOf_spec]
    omega
  · cases h

end Action

namespace Step

/-- A field picked from a mapping is there if it is named and the mapping has it. -/
theorem field?_picked (step : Entries) (names : List String) (name : String) :
    Entries.field? name (names.filterMap fun n => (step.field? n).map fun v => (.str n, v)) =
      if name ∈ names then step.field? name else none := by
  induction names with
  | nil => rfl
  | cons n names ih =>
    unfold Entries.field? at ih ⊢
    rw [List.filterMap_cons]
    by_cases hn : name = n
    · subst hn
      cases hv : Entries.get? (.str name) step with
      | none => simpa [hv] using ih
      | some v => simp [Entries.get?, Entries.same_str]
    · have hsame : Value.same (.str name) (.str n) = false := by
        rw [← Bool.not_eq_true, Entries.same_str, Value.str.injEq]
        exact Ne.symm hn
      cases hv : Entries.get? (.str n) step with
      | none => simpa [hn] using ih
      | some v => simpa [Entries.get?, hsame, hn] using ih

/-- A typed step has one action. -/
theorem actionForm_actions (type : String) (step : Entries) :
    (actionForm type step).fieldD "actions" = .list [.mapping [typedAction type step]] := by
  unfold actionForm Entries.fieldD
  dsimp only
  split
  · rw [Entries.field?_put, if_neg (by decide), Entries.field?_put, if_pos rfl]
    rfl
  · rw [Entries.field?_put, if_pos rfl]
    rfl

/-- The fallback of a typed step is the one that it names, or an instruction to the user. -/
theorem actionForm_fallback (type : String) (step : Entries) :
    (actionForm type step).fieldD "fallback" = step.fieldD "fallback" ∨
      ∃ payload, (actionForm type step).fieldD "fallback" =
        .list [.ofFields [("core:user_action", payload)]] := by
  unfold actionForm Entries.fieldD
  dsimp only
  split
  · right
    rw [Entries.field?_put, if_pos rfl]
    exact ⟨_, rfl⟩
  · left
    rw [Entries.field?_put, if_neg (by decide), field?_picked]
    rfl

/-- No type of step stands for a group with steps in it. -/
theorem typedAction_ne_group (type : String) (step : Entries) :
    (typedAction type step).1.text ≠ "core:group" ∨ (typedAction type step).2 = .null := by
  unfold typedAction
  cases h : typedActions.lookup type with
  | none => exact .inr rfl
  | some entry =>
    left
    obtain ⟨before, after, hentries, -⟩ := List.lookup_eq_some_iff.mp h
    have hmem : (type, entry) ∈ typedActions := by simp [hentries]
    have hall : ∀ e ∈ typedActions, e.2.1 ≠ "core:group" := by decide
    exact hall _ hmem

/-- The payloads of actions that a field of a mapping lists are smaller than the mapping. -/
theorem sizeOf_of_field (name : String) {path : String} {raw : Entries} {v : Value}
    {as : List Action} (hv : v = .list [] ∨ v = raw.fieldD name) (h : Action.listOf path v = .ok as) :
    ∀ a ∈ as, sizeOf a.payload < sizeOf raw := by
  rcases hv with rfl | rfl
  · cases h
    simp
  · unfold Entries.fieldD Entries.field? at h
    cases hget : Entries.get? (.str name) raw with
    | none =>
      rw [hget] at h
      cases h
    | some v =>
      rw [hget] at h
      have hv := Entries.sizeOf_get? hget
      intro a ha
      have := Action.listOf_sizeOf h a ha
      rw [Option.getD_some] at this
      omega

theorem sizeOf_pos (raw : Entries) : 0 < sizeOf raw := by
  cases raw with
  | nil => rw [List.nil.sizeOf_spec]
           exact Nat.one_pos
  | cons e es =>
    rw [List.cons.sizeOf_spec]
    omega

theorem ReadAs.sizeOf_lt {path : String} {raw : Entries} {s : Step} (h : ReadAs path raw s) :
    (∀ a ∈ s.actions, sizeOf a.payload < sizeOf raw) ∧
      ∀ a ∈ s.fallback, sizeOf a.payload < sizeOf raw := by
  refine ⟨sizeOf_of_field "actions" ?_ h.actions, ?_⟩
  · unfold Value.orElse
    split
    · exact .inr rfl
    · exact .inl rfl
  · rcases h.fallback with ⟨hnil, -⟩ | hlist
    · simp [hnil]
    · exact sizeOf_of_field "fallback" (.inr rfl) hlist

/-- The payload of a group in a step is smaller than the value that the step was read from. -/
theorem ofValue_sizeOf {path : String} {v : Value} {s : Step} (h : ofValue path v = .ok s) :
    ∀ a ∈ s.actions ++ s.fallback, a.id.text = "core:group" → sizeOf a.payload < sizeOf v := by
  cases v with
  | mapping raw =>
    have hraw : sizeOf (Value.mapping raw) = 1 + sizeOf raw := Value.mapping.sizeOf_spec raw
    cases htyped : isTyped raw with
    | true =>
      rw [ofValue_typed htyped (writable_of_typed htyped h)] at h
      have hread := ofEntries_readAs h
      intro a ha hid
      rcases List.mem_append.mp ha with ha | ha
      · -- The one action of a typed step may be a group, but then it has no steps.
        have hactions := hread.actions
        rw [actionForm_actions, Value.orElse_single, Action.listOf_single] at hactions
        rw [← Except.ok.inj hactions, List.mem_singleton] at ha
        subst ha
        rcases typedAction_ne_group (Entries.fieldD "type" raw).text raw with hne | hnull
        · exact absurd hid hne
        · rw [hnull, hraw, Value.null.sizeOf_spec]
          exact Nat.lt_add_of_pos_right (sizeOf_pos raw)
      · rcases hread.fallback with ⟨hnil, -⟩ | hlist
        · simp [hnil] at ha
        · rcases actionForm_fallback (Entries.fieldD "type" raw).text raw with hf | ⟨payload, hf⟩
          · rw [hf] at hlist
            have := sizeOf_of_field "fallback" (.inr rfl) hlist a ha
            omega
          · rw [hf] at hlist
            rw [← Except.ok.inj hlist, List.mem_singleton] at ha
            subst ha
            exact absurd hid (by decide : "core:user_action" ≠ "core:group")
    | false =>
      rw [ofValue_plain htyped] at h
      obtain ⟨hactions, hfallback⟩ := (ofEntries_readAs h).sizeOf_lt
      intro a ha _
      rcases List.mem_append.mp ha with ha | ha
      · have := hactions a ha
        omega
      · have := hfallback a ha
        omega
  | _ => cases h

end Step

/-! ## Groups -/

/-- The action groups the steps. -/
def Action.Groups (a : Action) (ss : List Step) : Prop :=
  a.id.text = "core:group" ∧
    ∃ items path, a.payload.items? = some items ∧ Step.listOf path (.list items) = .ok ss

namespace Step

/-- A step is grouped in another one, by one of its actions or of its fallback. -/
def Groups (s inner : Step) : Prop :=
  ∃ a ∈ s.actions ++ s.fallback, ∃ ss, a.Groups ss ∧ inner ∈ ss

/-- A step is another one, or is grouped in it at any depth. -/
def Contains : Step → Step → Prop :=
  Relation.ReflTransGen Groups

theorem sizeOf_item {v : Value} {items : List Value} (h : v.items? = some items) {path : String}
    {ss : List Step} (hss : listOf path (.list items) = .ok ss) {s : Step} (hs : s ∈ ss) :
    ∃ item path, ofValue path item = .ok s ∧ sizeOf item < sizeOf v := by
  obtain ⟨item, hitem, path', hread⟩ := ofItems_mem hss hs
  refine ⟨item, path', hread, ?_⟩
  cases v with
  | tuple xs | list xs | set xs =>
    cases h
    have := List.sizeOf_lt_of_mem hitem
    simp only [Value.tuple.sizeOf_spec, Value.list.sizeOf_spec, Value.set.sizeOf_spec]
    omega
  | mapping es =>
    cases h
    obtain ⟨e, he, rfl⟩ := List.mem_map.mp hitem
    have := List.sizeOf_lt_of_mem he
    rw [Value.mapping.sizeOf_spec]
    rcases e with ⟨k, v⟩
    rw [Prod.mk.sizeOf_spec] at this
    dsimp only
    omega
  | str text =>
    -- A character is no step.
    cases h
    obtain ⟨c, -, rfl⟩ := List.mem_map.mp hitem
    cases hread
  | bytes bs =>
    cases h
    obtain ⟨b, -, rfl⟩ := List.mem_map.mp hitem
    cases hread
  | _ => cases h

/-- Grouping does not go on for ever: what is grouped is smaller. -/
theorem groups_wellFounded : WellFounded fun inner s : Step => s.Groups inner := by
  have hacc : ∀ n (s : Step), (∀ a ∈ s.actions ++ s.fallback, a.id.text = "core:group" →
      sizeOf a.payload < n) → Acc (fun inner s : Step => s.Groups inner) s := by
    intro n
    induction n with
    | zero =>
      refine fun s hs => ⟨_, ?_⟩
      rintro inner ⟨a, ha, ss, ⟨hid, -⟩, -⟩
      exact absurd (hs a ha hid) (Nat.not_lt_zero _)
    | succ n ih =>
      refine fun s hs => ⟨_, ?_⟩
      rintro inner ⟨a, ha, ss, ⟨hid, items, path, hitems, hss⟩, hinner⟩
      obtain ⟨item, path', hread, hsize⟩ := sizeOf_item hitems hss hinner
      refine ih inner fun b hb hbid => ?_
      have hb := ofValue_sizeOf hread b hb hbid
      have ha := hs a ha hid
      omega
  refine ⟨fun s => hacc (sizeOf (s.actions ++ s.fallback)) s fun a ha _ => ?_⟩
  have hmem := List.sizeOf_lt_of_mem ha
  rw [Action.mk.sizeOf_spec] at hmem
  omega

end Step

/-! ## What actions return -/

theorem Flow.dispatch_payload {a : Action} {d : Dispatch} (h : a.dispatch = .ok d) :
    d.payload = a.payload := by
  rw [dispatch_of_writable (dispatch_writable h)] at h
  split at h
  · split at h
    · cases h
    · cases h
      rfl
  · cases h

namespace Builtin

/-- The steps that an action of the built-in table may return: those that it groups, or the one that
waits for the device after an instruction. -/
inductive Expands (a : Action) : List Step → Prop
  | nothing : Expands a []
  | group {ss : List Step} (h : a.Groups ss) : Expands a ss
  | wait (hid : a.id.text = "core:user_action") (name : Value) (action : String)
    (h : waitFor? name = some action) (raw : Entries) :
    Expands a [{ actions := [.named action], raw }]

/-- Only two actions return steps. -/
theorem Expands.eq_nil {a : Action} {ss : List Step} (h : Expands a ss)
    (hgroup : a.id.text ≠ "core:group") (huser : a.id.text ≠ "core:user_action") : ss = [] := by
  cases h with
  | nothing => rfl
  | group h => exact absurd h.1 hgroup
  | wait hid => exact absurd hid huser

theorem mem_waitAfter {name : Value} {action : String} (h : waitFor? name = some action) :
    action ∈ waitAfter.map Prod.snd := by
  unfold waitFor? at h
  split at h
  · obtain ⟨_, _, hentries, -⟩ := List.lookup_eq_some_iff.mp h
    simp [hentries]
  · cases h

/-- What waits after an instruction returns no steps itself. -/
theorem eq_nil_of_waitFor? {name : Value} {action : String} (h : waitFor? name = some action)
    {payload : Value} {ss : List Step} (hss : Expands (.named action payload) ss) : ss = [] := by
  have hall : ∀ action ∈ waitAfter.map Prod.snd,
      action ≠ "core:group" ∧ action ≠ "core:user_action" := by decide
  exact hss.eq_nil (hall action (mem_waitAfter h)).1 (hall action (mem_waitAfter h)).2

theorem listOf_waitStep (path action : String) :
    Step.listOf path (.list [waitStep action]) =
      .ok [{
        actions := [.named action]
        raw := [(.str "actions", .list [.ofFields [(action, .null)]])] }] := by
  cbv

/-- The steps that are read off the value of a handler are such steps. -/
theorem expands_of_returns {a : Action} {d : Dispatch} (ha : a.dispatch = .ok d) {v : Value}
    (hv : Returns d.id d.payload v) {ss : List Step} (hss : Flow.substepsOf d v = .ok ss) :
    Expands a ss := by
  have hid : d.id = a.id.text := Flow.dispatch_id ha
  have hpayload : d.payload = a.payload := Flow.dispatch_payload ha
  unfold Flow.substepsOf at hss
  cases hv with
  | nothing =>
    cases hss
    exact .nothing
  | group hgroup items hitems =>
    split at hss
    · exact .group ⟨hid ▸ hgroup, items, _, hpayload ▸ hitems, hss⟩
    · cases hss
      exact .nothing
  | wait huser name action haction =>
    have htruth : (Value.list [waitStep action]).truth = true := rfl
    rw [if_pos htruth, listOf_waitStep] at hss
    cases hss
    exact .wait (hid ▸ huser) name action haction _

/-- The call of a built-in handler returns the steps of its action. -/
theorem callHandler_expands {a : Action} {d : Dispatch} (ha : a.dispatch = .ok d)
    (ctx : Context σ) : (Flow.callHandler table ctx d).Yields (Expands a) := by
  refine Flow.callHandler_ensures (R := fun _ o => ∀ v, o = .returned v → Returns d.id d.payload v)
    (fun handler h => handler_returns h d.payload ctx) ?_ ?_ ?_ ?_ ?_
  · exact fun _ ss h => by cases h
  · intro es v ss hv hss ss' h
    cases h
    exact expands_of_returns ha (hv v rfl) hss
  · exact fun es v e _ _ ss h => by cases h
  · exact fun es e _ ss h => by cases h
  · exact fun es _ ss h => by cases h

end Builtin

end Reflash
