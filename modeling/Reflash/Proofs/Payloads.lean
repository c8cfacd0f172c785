import Reflash.Proofs.Dispatching
import Reflash.Proofs.NormalForm

set_option autoImplicit false

/-! # The payloads of typed steps

The payload of a typed step holds the fields that the table of types lists; what a handler reads of a
payload is written down nowhere. A handler reads some fields only if it does the same with any two
mappings that agree on them (`Handler.Reads`), the failures for fields that are missing or of the wrong
type included. Of each type the handler reads no field of the step that the table leaves out, so it does
the same with the whole step (`Step.payload_suffices`). -/

namespace Reflash

open Run

variable {σ : Type}

/-! ## Fields -/

namespace Entries

/-- The entries but for those under a text key. -/
def without (name : String) (es : Entries) : Entries :=
  es.filter fun e => !Value.same (.str name) e.1

theorem field?_without (name other : String) (es : Entries) :
    (es.without other).field? name = if name = other then none else es.field? name := by
  induction es with
  | nil => simp [without, field?, get?]
  | cons e es ih =>
    obtain ⟨k, v⟩ := e
    unfold without at ih ⊢
    rw [List.filter_cons, field?_cons]
    cases hother : Value.same (.str other) k with
    | true =>
      have hname : Value.same (.str name) k ↔ name = other := by
        rw [same_str, same_str.mp hother, Value.str.injEq, eq_comm]
      simp only [Bool.not_true, Bool.false_eq_true, if_false, ih, hname]
      split <;> rfl
    | false =>
      rw [Bool.not_false, if_pos rfl, field?_cons, ih]
      split
      · next hname =>
        have hne : name ≠ other := by
          rintro rfl
          rw [hname] at hother
          cases hother
        rw [if_neg hne]
      · rfl

end Entries

namespace Value

variable {name : String} {es es' : Entries}

theorem item_congr (h : es.field? name = es'.field? name) :
    (Value.mapping es).item name = (Value.mapping es').item name := by
  rw [item, item, h]

theorem optionalItem_congr (h : es.field? name = es'.field? name) :
    (Value.mapping es).optionalItem name = (Value.mapping es').optionalItem name := by
  rw [optionalItem, optionalItem, Entries.fieldD, Entries.fieldD, h]

theorem mapping_orElse_nil (es : Entries) :
    (Value.mapping es).orElse (.mapping []) = .mapping es := by
  cases es <;> rfl

theorem listOrEmpty_orElse (v : Value) : (v.orElse (.list [])).listOrEmpty = v.listOrEmpty := by
  unfold orElse
  split
  · rfl
  · next h => rw [listOrEmpty, listOrEmpty, if_neg h]; rfl

end Value

theorem Context.cachedFile_congr (ctx : Context σ) {es es' : Entries}
    (hgroup : es.field? "group" = es'.field? "group") (hfile : es.field? "file" = es'.field? "file") :
    ctx.cachedFile (.mapping es) = ctx.cachedFile (.mapping es') := by
  rw [Context.cachedFile, Context.cachedFile, Value.item_congr hgroup, Value.item_congr hfile]

/-! ## What handlers read -/

/-- Of a mapping the handler reads no other fields than these: it does the same with any two mappings that
agree on them. -/
def Handler.Reads (handler : Handler σ) (names : List String) : Prop :=
  ∀ es es' : Entries, (∀ name ∈ names, es.field? name = es'.field? name) →
    ∀ ctx, handler (.mapping es) ctx = handler (.mapping es') ctx

namespace Builtin

theorem download_reads : (download : Handler σ).Reads ["group", "files"] := by
  intro es es' h ctx
  unfold download
  rw [Value.item_congr (h "group" (by decide)), Value.optionalItem_congr (h "files" (by decide))]

theorem manualDownload_reads : (manualDownload : Handler σ).Reads ["group", "file"] := by
  intro es es' h ctx
  unfold manualDownload
  rw [Value.item_congr (h "group" (by decide)), Value.item_congr (h "file" (by decide))]

theorem unpack_reads : (unpack : Handler σ).Reads ["group", "files"] := by
  intro es es' h ctx
  unfold unpack
  rw [Value.item_congr (h "group" (by decide)), Value.optionalItem_congr (h "files" (by decide))]

theorem userAction_reads : (userAction : Handler σ).Reads ["action"] := by
  intro es es' h ctx
  unfold userAction
  rw [Value.optionalItem_congr (h "action" (by decide))]

theorem adbFormat_reads : (adbFormat : Handler σ).Reads ["partition"] := by
  intro es es' h ctx
  unfold adbFormat
  rw [Value.item_congr (h "partition" (by decide))]

theorem sideload_reads : (sideload : Handler σ).Reads ["group", "file"] := by
  intro es es' h ctx
  have hgroup := h "group" (by decide)
  unfold sideload
  rw [Value.item_congr hgroup, ctx.cachedFile_congr hgroup (h "file" (by decide))]

theorem adbReboot_reads : (adbReboot : Handler σ).Reads ["to_state"] := by
  intro es es' h ctx
  unfold adbReboot
  rw [Value.mapping_orElse_nil, Value.mapping_orElse_nil,
    Value.optionalItem_congr (h "to_state" (by decide))]

theorem erase_reads : (erase : Handler σ).Reads ["partition"] := by
  intro es es' h ctx
  unfold erase
  rw [Value.item_congr (h "partition" (by decide))]

/-- The type of the file system may be given under either of two names. -/
theorem fastbootFormat_reads :
    (fastbootFormat : Handler σ).Reads ["partition", "type", "partitionType", "size"] := by
  intro es es' h ctx
  unfold fastbootFormat
  rw [Value.item_congr (h "partition" (by decide)), Value.optionalItem_congr (h "type" (by decide)),
    Value.optionalItem_congr (h "partitionType" (by decide)),
    Value.optionalItem_congr (h "size" (by decide))]

theorem boot_reads : (boot : Handler σ).Reads ["group", "file", "partition"] := by
  intro es es' h ctx
  unfold boot
  rw [ctx.cachedFile_congr (h "group" (by decide)) (h "file" (by decide)),
    Value.optionalItem_congr (h "partition" (by decide))]

theorem update_reads : (update : Handler σ).Reads ["group", "file"] := by
  intro es es' h ctx
  unfold update
  rw [ctx.cachedFile_congr (h "group" (by decide)) (h "file" (by decide))]

theorem setActive_reads : (setActive : Handler σ).Reads ["slot"] := by
  intro es es' h ctx
  unfold setActive
  rw [Value.item_congr (h "slot" (by decide))]

/-- Flashing reads a list, and nothing that counts as false is told from the empty one. -/
theorem flash_orElse (v : Value) (ctx : Context σ) :
    flash (v.orElse (.list [])) ctx = flash v ctx := by
  unfold flash
  rw [Value.listOrEmpty_orElse]

theorem heimdallFlash_orElse (v : Value) (ctx : Context σ) :
    heimdallFlash (v.orElse (.list [])) ctx = heimdallFlash v ctx := by
  unfold heimdallFlash
  rw [Value.listOrEmpty_orElse]

end Builtin

/-! ## Typed steps -/

namespace Step

/-- All that a typed step gives to its action: the images for the two types that flash, and for any other
type the whole step but for the type. -/
def wholePayload (type : String) (raw : Entries) : Value :=
  if type = "fastboot:flash" ∨ type = "heimdall:flash" then raw.fieldD "flash"
  else .mapping (raw.without "type")

/-- A handler that reads listed fields only, or the type, which is not left in the step, does the same with
the listed fields and with the step. -/
theorem fields_suffice {handler : Handler σ} {read listed : List String} (hreads : handler.Reads read)
    (hlisted : read ⊆ "type" :: listed) (htype : "type" ∉ listed) (raw : Entries) (ctx : Context σ) :
    handler ((TypedPayload.fields listed).build raw) ctx =
      handler (.mapping (raw.without "type")) ctx := by
  refine hreads _ _ (fun name hname => ?_) ctx
  rw [field?_picked, Entries.field?_without]
  rcases List.mem_cons.mp (hlisted hname) with rfl | hname
  · rw [if_neg htype, if_pos rfl]
  · have hne : name ≠ "type" := by
      rintro rfl
      exact htype hname
    rw [if_pos hname, if_neg hne]

open Builtin in
/-- The handler of each row of the table of types does the same with the payload of the row as with all
that the step gives. -/
theorem row_suffices {type id : String} {payload : TypedPayload}
    (h : (type, id, payload) ∈ typedActions) :
    ∃ handler : Handler σ, Builtin.table.handler? id = some handler ∧ ∀ raw ctx,
      handler (payload.build raw) ctx = handler (wholePayload type raw) ctx := by
  simp only [typedActions, List.mem_cons, List.not_mem_nil, Prod.mk.injEq, or_false] at h
  rcases h with ⟨rfl, rfl, rfl⟩ | ⟨rfl, rfl, rfl⟩ | ⟨rfl, rfl, rfl⟩ | ⟨rfl, rfl, rfl⟩ |
    ⟨rfl, rfl, rfl⟩ | ⟨rfl, rfl, rfl⟩ | ⟨rfl, rfl, rfl⟩ | ⟨rfl, rfl, rfl⟩ | ⟨rfl, rfl, rfl⟩ |
    ⟨rfl, rfl, rfl⟩ | ⟨rfl, rfl, rfl⟩ | ⟨rfl, rfl, rfl⟩ | ⟨rfl, rfl, rfl⟩ | ⟨rfl, rfl, rfl⟩ |
    ⟨rfl, rfl, rfl⟩ | ⟨rfl, rfl, rfl⟩ | ⟨rfl, rfl, rfl⟩ | ⟨rfl, rfl, rfl⟩
  · exact ⟨_, rfl, fields_suffice download_reads (by decide) (by decide)⟩
  · exact ⟨_, rfl, fields_suffice manualDownload_reads (by decide) (by decide)⟩
  · exact ⟨_, rfl, fields_suffice unpack_reads (by decide) (by decide)⟩
  · exact ⟨_, rfl, fields_suffice userAction_reads (by decide) (by decide)⟩
  · exact ⟨_, rfl, fun _ _ => rfl⟩
  · exact ⟨_, rfl, fields_suffice adbFormat_reads (by decide) (by decide)⟩
  · exact ⟨_, rfl, fields_suffice sideload_reads (by decide) (by decide)⟩
  · exact ⟨_, rfl, fields_suffice adbReboot_reads (by decide) (by decide)⟩
  · exact ⟨_, rfl, fun raw ctx => flash_orElse (raw.fieldD "flash") ctx⟩
  · exact ⟨_, rfl, fields_suffice erase_reads (by decide) (by decide)⟩
  · exact ⟨_, rfl, fields_suffice fastbootFormat_reads (by decide) (by decide)⟩
  · exact ⟨_, rfl, fields_suffice boot_reads (by decide) (by decide)⟩
  · exact ⟨_, rfl, fields_suffice update_reads (by decide) (by decide)⟩
  · exact ⟨_, rfl, fun _ _ => rfl⟩
  · exact ⟨_, rfl, fun _ _ => rfl⟩
  · exact ⟨_, rfl, fun _ _ => rfl⟩
  · exact ⟨_, rfl, fields_suffice setActive_reads (by decide) (by decide)⟩
  · exact ⟨_, rfl, fun raw ctx => heimdallFlash_orElse (raw.fieldD "flash") ctx⟩

theorem typedAction_of_lookup {type id : String} {payload : TypedPayload}
    (h : typedActions.lookup type = some (id, payload)) (raw : Entries) :
    typedAction type raw = (.str id, payload.build raw) := by
  rw [typedAction, h]

/-- A typed step is read as a step with one built-in action, and with its payload the handler of this
action tells, asks and calls the same, and returns and fails the same, as with all that the step gives,
whatever the world. -/
theorem payload_suffices {type : String} {raw : Entries} (htype : (raw.fieldD "type").text = type)
    (hknown : type ∈ typedActions.map Prod.fst) :
    ∃ id payload, ∃ handler : Handler σ, typedAction type raw = (.str id, payload) ∧
      (∀ path s, isTyped raw = true → ofValue path (.mapping raw) = .ok s →
        s.actions = [.named id payload]) ∧
      Builtin.table.handler? id = some handler ∧
      ∀ ctx, handler payload ctx = handler (wholePayload type raw) ctx := by
  obtain ⟨⟨_, id, payload⟩, hrow, rfl⟩ := List.mem_map.mp hknown
  obtain ⟨handler, hhandler, hsame⟩ := row_suffices (σ := σ) hrow
  have hlookup := (Pairs.lookup_eq_some_iff_mem (by decide)).mpr hrow
  have haction := typedAction_of_lookup hlookup raw
  exact ⟨id, payload.build raw, handler, haction,
    fun path s htyped hread => actions_of_typed htyped htype haction hread, hhandler, hsame raw⟩

/-- A field that the table leaves out makes no difference, and the type of the file system is read under
the name that the table has. -/
theorem format_payload_suffices :
    let raw : Entries := [(.str "type", .str "fastboot:format"), (.str "partitionType", .str "ext4"),
      (.str "partition", .str "cache"), (.str "note", .str "spare")]
    let payload : Value := .ofFields [("partition", .str "cache"), ("partitionType", .str "ext4")]
    let whole : Value := .ofFields
      [("partitionType", .str "ext4"), ("partition", .str "cache"), ("note", .str "spare")]
    typedAction "fastboot:format" raw = (.str "fastboot:format", payload) ∧
      ∀ ctx : Context Unit, Builtin.fastbootFormat payload ctx = Builtin.fastbootFormat whole ctx := by
  intro raw payload whole
  have htype : (raw.fieldD "type").text = "fastboot:format" := by cbv
  have hpayload : typedAction "fastboot:format" raw = (.str "fastboot:format", payload) := by cbv
  have hwhole : wholePayload "fastboot:format" raw = whole := by
    rw [wholePayload, if_neg (by decide)]
    cbv
  obtain ⟨id, payload, handler, haction, -, hhandler, hsame⟩ :=
    payload_suffices (σ := Unit) htype (by decide)
  cases haction.symm.trans hpayload
  cases hhandler
  rw [hwhole] at hsame
  exact ⟨hpayload, hsame⟩

end Step

end Reflash
