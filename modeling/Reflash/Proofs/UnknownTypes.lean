import Reflash.Proofs.Dispatching
import Reflash.Proofs.NormalForm
import Reflash.Proofs.Phrases

set_option autoImplicit false

/-! # Steps of an unknown type

A type that the table of typed steps does not have becomes an action without a payload. The identifier of
this action is listed among the built-in actions just where the type itself is
(`Step.unknownTypeAction_mem_iff`); then its handler runs, and the fields of the step are lost. For every
other type the action is an unknown one, and nothing happens (`Step.unknown_type_settles`). -/

namespace Reflash

open Run

variable {σ : Type}

namespace Step

theorem contains_colon_iff {text : String} : Text.contains text ":" = true ↔ ':' ∈ text.toList := by
  rw [Text.contains, Text.occursIn_iff]
  exact List.singleton_infix_iff ':' text.toList

theorem typedAction_of_unknown {type : String} (h : type ∉ typedActions.map Prod.fst) (raw : Entries) :
    typedAction type raw = (.str (unknownTypeAction type), .null) := by
  rw [typedAction, Pairs.lookup_eq_none_iff.mpr h]

/-- A type that names a verb is an identifier already. -/
theorem unknownTypeAction_of_names {type ns verb : String} (h : ActionTable.Names type ns verb) :
    unknownTypeAction type = type := by
  have hcolon : ':' ∈ type.toList := by
    rw [h.1]
    simp
  rw [unknownTypeAction, if_pos (contains_colon_iff.mpr hcolon)]

/-- What a type without a colon is prefixed with is no built-in namespace. -/
theorem unknownTypeAction_mem_iff {type : String} :
    unknownTypeAction type ∈ (Builtin.table : ActionTable σ).actionIds ↔
      type ∈ (Builtin.table : ActionTable σ).actionIds := by
  unfold unknownTypeAction
  split
  · rfl
  · next hcolon =>
    rw [contains_colon_iff] at hcolon
    rw [Builtin.mem_actionIds_iff, Builtin.mem_actionIds_iff]
    constructor
    · rintro ⟨ns, verb, hnames, handler, verbs, hns, -⟩
      have hlegacy : ActionTable.Names ("legacy:" ++ type) "legacy" type := ⟨rfl, by decide⟩
      obtain ⟨rfl, rfl⟩ := hnames.unique hlegacy
      simp [Builtin.plugins] at hns
    · rintro ⟨ns, verb, ⟨rfl, -⟩, -⟩
      simp at hcolon

/-- A step whose type is not in the table is read as a step with one action, without a payload. This is
an unknown action unless the type is the identifier of a built-in one, whose handler is then called with
nothing of the step. -/
theorem unknown_type_settles {type : String} {raw : Entries} (htype : (raw.fieldD "type").text = type)
    (hunknown : type ∉ typedActions.map Prod.fst) (runSteps : List Step → Flow σ Unit)
    (ctx : Context σ) :
    typedAction type raw = (.str (unknownTypeAction type), .null) ∧
    (∀ path s, isTyped raw = true → ofValue path (.mapping raw) = .ok s →
      s.actions = [.named (unknownTypeAction type)]) ∧
    (type ∉ (Builtin.table : ActionTable σ).actionIds →
      Flow.actionOfValue runSteps Builtin.table ctx (.mapping [typedAction type raw]) =
        Run.raise (.inAction (unknownTypeAction type) (.unknownAction (unknownTypeAction type)))) ∧
    ∀ ns verb handler, ActionTable.Names type ns verb →
      ActionTable.Registers Builtin.plugins ns verb handler →
      Flow.actionOfValue runSteps Builtin.table ctx (.mapping [typedAction type raw]) =
        Run.emit (.dispatched ns verb .null) >>= fun _ =>
          (Flow.ofHandler (handler .null ctx)).thereafter
            (Flow.afterCall runSteps ⟨type, ns, verb, .null⟩) := by
  have haction := typedAction_of_unknown hunknown raw
  refine ⟨haction, fun path s htyped hread => actions_of_typed htyped htype haction hread,
    fun hid => ?_, ?_⟩
  · have hnone : (Builtin.table : ActionTable σ).handler? (unknownTypeAction type) = none := by
      rw [← Option.not_isSome_iff_eq_none, ← ActionTable.has, Builtin.has_iff_mem,
        unknownTypeAction_mem_iff]
      exact hid
    rw [haction, Flow.actionOfValue_mapping]
    exact Flow.action_of_unknown runSteps ctx rfl hnone
  · intro ns verb handler hnames hreg
    have hregular := Builtin.plugins_regular (σ := σ)
    rw [haction, unknownTypeAction_of_names hnames, Flow.actionOfValue_mapping]
    exact Flow.action_of_handler runSteps ctx
      (Action.dispatch_of_names (a := .named type) rfl hnames (hregular.ns_ne_empty hreg)
        (hregular.verb_ne_empty hreg))
      (Builtin.handler?_eq_some_iff.mpr ⟨ns, verb, hnames, hreg⟩)

/-- A type that is misspelt is an unknown action. -/
theorem misspelt_type_unknown :
    let raw : Entries := [(.str "type", .str "sideload"), (.str "group", .str "Ubuntu Touch")]
    let ctx : Context Unit := (Workflow.plain { choice := .retry } []).ctx
    isTyped raw = true ∧ ∀ runSteps,
      Flow.actionOfValue runSteps Builtin.table ctx (.mapping [typedAction "sideload" raw]) =
        Run.raise (.inAction "legacy:sideload" (.unknownAction "legacy:sideload")) := by
  intro raw ctx
  have htype : (raw.fieldD "type").text = "sideload" := by cbv
  have hhas : (Builtin.table : ActionTable Unit).has "sideload" = false := by cbv
  have hids : "sideload" ∉ (Builtin.table : ActionTable Unit).actionIds := by
    rw [← Builtin.has_iff_mem, hhas]
    exact Bool.false_ne_true
  have hname : unknownTypeAction "sideload" = "legacy:sideload" := by
    rw [unknownTypeAction, if_neg (contains_colon_iff.not.mpr (by decide))]
    rfl
  refine ⟨by cbv, fun runSteps => ?_⟩
  have h := (unknown_type_settles htype (by decide) runSteps ctx).2.2.1 hids
  rwa [hname] at h

/-- A step whose type is the identifier of a built-in action that no typed step stands for runs this action
without its fields: the bootloader is unlocked without the code that the step gives. -/
theorem unlock_type_drops_code :
    let raw : Entries := [(.str "type", .str "fastboot:oem_unlock"), (.str "code", .str "1234")]
    let ctx : Context Unit := (Workflow.plain { choice := .retry } []).ctx
    let t := Flow.actionOfValue (fun _ => return) Builtin.table ctx
      (.mapping [typedAction "fastboot:oem_unlock" raw]) 0 ()
    isTyped raw = true ∧ typedActions.lookup "fastboot:oem_unlock" = none ∧
      t.ending = .returned () ∧ t.events = [.dispatched "fastboot" "oem_unlock" .null,
        .handler (.notified ⟨.working, [.str "particles"]⟩),
        .handler (.notified ⟨.status, [.str "Unlocking", .bool true]⟩),
        .handler (.notified ⟨.under, [.str "Unlocking the bootloader"]⟩),
        .handler (.called "fastboot" "oem_unlock" [.null])] := by
  cbv

end Step

end Reflash
