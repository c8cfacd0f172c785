import Mathlib
import Reflash.Proofs.DryRun
import Reflash.Proofs.Grouping
import Reflash.Proofs.Plain

set_option autoImplicit false

/-! # Orders to devices

What a verb orders of a device is a list of commands of one tool (`Builtin.Order.lines`). A job obeys
a list of commands (`Job.Obeys`) if it starts one process after the other for them, up to the first
one that does not succeed, and fails just then, with the kind that this process shows. Jobs that are
put together obey their lists, put together the same way; so every handler obeys its order, and its
action fails as the last process did (`Builtin.order_obeyed`). -/

namespace Reflash

open Run

variable {σ τ α β : Type}

/-! ## Processes and their failures -/

namespace Process

/-- The process ended with the exit code 0. -/
def Succeeded (p : Process) : Prop :=
  ∃ result, p.result = some result ∧ result.code = 0

/-- What kind of failure it is if the process does not succeed: one that a signal ended was killed,
any other one says in words what happened, and a missing program says nothing. -/
def failureKind (p : Process) : FailureKind :=
  match p.result with
  | none => .generic
  | some result => if result.code < 0 then .killed else Diagnosis.ofText result.output

end Process

/-- Processes whose results depend on the words and on the devices; there is none where the program
is missing. -/
def Launch.answering (respond : List String → τ → Option CommandResult × τ) : Launch τ :=
  fun argv devices => (.returned (respond argv devices).1, (respond argv devices).2)

/-- The processes were started for the commands, one after the other, up to the first one that did
not succeed. If all succeeded, the outcome is the value; otherwise it is a failure, of the kind that
the last process shows. -/
inductive Obeyed (a : α) : List (List String) → List Process → Ending α → Prop
  | done : Obeyed a [] [] (.returned a)
  | next {p : Process} {lines : List (List String)} {ps : List Process} {o : Ending α}
    (hp : p.Succeeded) (h : Obeyed a lines ps o) : Obeyed a (p.argv :: lines) (p :: ps) o
  | stopped {p : Process} {lines : List (List String)} {message : String} (hp : ¬ p.Succeeded) :
    Obeyed a (p.argv :: lines) [p] (.raised (.failure p.failureKind message))

namespace Obeyed

variable {a : α} {lines : List (List String)} {ps : List Process} {o : Ending α}

theorem argv_prefix (h : Obeyed a lines ps o) : ps.map Process.argv <+: lines := by
  induction h with
  | done => exact List.prefix_rfl
  | next _ _ ih => exact List.prefix_cons_inj _ |>.mpr ih
  | stopped => exact ⟨_, rfl⟩

/-- Either everything was done, or the last process is the first one that did not succeed. -/
theorem outcome (h : Obeyed a lines ps o) :
    (o = .returned a ∧ ps.map Process.argv = lines ∧ ∀ p ∈ ps, p.Succeeded) ∨
    ∃ qs p message, ps = qs ++ [p] ∧ (∀ q ∈ qs, q.Succeeded) ∧ ¬ p.Succeeded ∧
      o = .raised (.failure p.failureKind message) := by
  induction h with
  | done => exact .inl ⟨rfl, rfl, nofun⟩
  | @next p lines ps o hp _ ih =>
    rcases ih with ⟨rfl, rfl, hps⟩ | ⟨qs, q, message, rfl, hqs, hq, rfl⟩
    · exact .inl ⟨rfl, rfl, List.forall_mem_cons.mpr ⟨hp, hps⟩⟩
    · exact .inr ⟨p :: qs, q, message, rfl, List.forall_mem_cons.mpr ⟨hp, hqs⟩, hq, rfl⟩
  | @stopped p _ message hp => exact .inr ⟨[], p, message, rfl, nofun, hp, rfl⟩

/-- Where everything was done, further commands can follow; otherwise they are left out. -/
theorem append (h : Obeyed a lines ps o) (b : β) (lines' : List (List String)) :
    (o = .returned a ∧ ∀ ps' o', Obeyed b lines' ps' o' →
      Obeyed b (lines ++ lines') (ps ++ ps') o') ∨
    ∃ e, o = .raised e ∧ Obeyed b (lines ++ lines') ps (.raised e) := by
  induction h with
  | done => exact .inl ⟨rfl, fun _ _ h => h⟩
  | next hp _ ih =>
    rcases ih with ⟨rfl, hall⟩ | ⟨e, rfl, hcut⟩
    · exact .inl ⟨rfl, fun ps' o' h => .next hp (hall ps' o' h)⟩
    · exact .inr ⟨e, rfl, .next hp hcut⟩
  | stopped hp => exact .inr ⟨_, rfl, .stopped hp⟩

end Obeyed

/-! ## Jobs that obey -/

namespace Job

/-- Where it is no dry run, the job starts processes for the commands only, as it should, and returns
the value once everything is done. -/
def Obeys (lines : List (List String)) (a : α) (job : Job (Bench σ τ) α) : Prop :=
  ∀ n w, w.dryRun = false → ∃ ps, (job n w).world.dryRun = false ∧
    (job n w).world.processes = w.processes ++ ps ∧ Obeyed a lines ps (job n w).ending

namespace Obeys

variable {lines lines' : List (List String)} {a : α} {b : β} {job : Job (Bench σ τ) α}
  {next : α → Job (Bench σ τ) β}

/-- A job that starts no process. -/
theorem of_returned (h : ∀ n w, ∃ es rest, job n w = ⟨.returned a, es, { w with rest }⟩) :
    Obeys [] a job := by
  intro n w hw
  obtain ⟨es, rest, hjob⟩ := h n w
  rw [hjob]
  exact ⟨[], hw, (List.append_nil _).symm, .done⟩

theorem pure (a : α) : Obeys [] a (Pure.pure a : Job (Bench σ τ) α) :=
  of_returned fun _ w => ⟨[], w.rest, rfl⟩

theorem emit (s : Signal) : Obeys [] () (Run.emit s : Job (Bench σ τ) Unit) :=
  of_returned fun _ w => ⟨[s], w.rest, rfl⟩

theorem bind (h : Obeys lines a job) (hnext : Obeys lines' b (next a)) :
    Obeys (lines ++ lines') b (job >>= next) := by
  intro n w hw
  obtain ⟨ps, hreal, hprocesses, hobeyed⟩ := h n w hw
  rw [bind_apply]
  rcases hrun : job n w with ⟨o, es, w'⟩
  rw [hrun] at hreal hprocesses hobeyed
  rcases hobeyed.append b lines' with ⟨rfl, hall⟩ | ⟨e, rfl, hcut⟩
  · obtain ⟨ps', hreal', hprocesses', hobeyed'⟩ := hnext n w' hreal
    refine ⟨ps ++ ps', hreal', ?_, hall ps' _ hobeyed'⟩
    rw [← List.append_assoc, ← hprocesses]
    exact hprocesses'
  · exact ⟨ps, hreal, hprocesses, hcut⟩

/-- A job after one that starts no process. -/
theorem after (h : Obeys [] a job) (hnext : Obeys lines b (next a)) :
    Obeys lines b (job >>= next) :=
  h.bind hnext

/-- A job before one that starts no process. -/
theorem before (h : Obeys lines a job) (hnext : Obeys [] b (next a)) :
    Obeys lines b (job >>= next) := by
  simpa using h.bind hnext

theorem each {f : α → Job (Bench σ τ) Unit} {xs : List α}
    (h : List.Forall₂ (fun line x => Obeys [line] () (f x)) lines xs) :
    Obeys lines () (Run.each f xs) := by
  induction h with
  | nil => exact pure ()
  | cons hx _ ih => exact hx.bind ih

end Obeys

end Job

/-! ## Commands of tools -/

namespace ToolKit

/-- The words with which a tool is started for texts. -/
theorem texts_line (kit : ToolKit) (tool : DeviceTool) (dryRun : Bool) {args : List Value}
    {words : List String} (h : Command.texts args = .ok words) :
    Command.texts ((kit.tool tool dryRun).argv args) = .ok (kit.line tool words) := by
  unfold ToolKit.tool CommandLineTool.argv ToolKit.line
  by_cases hserial : tool = .heimdall || (kit.serial tool).isEmpty
  · simp [hserial, Command.texts, Value.asText, h, Except.map]
  · simp [hserial, Command.texts, Value.asText, h, Except.map]

end ToolKit

/-- A command whose words are texts is started. -/
theorem Bench.runner_answering (respond : List String → τ → Option CommandResult × τ)
    {argv : List Value} {program : String} {words : List String}
    (htexts : Command.texts argv = .ok (program :: words)) (n : Nat) {w : Bench σ τ}
    (hw : w.dryRun = false) :
    ∃ es, Bench.runner (Launch.answering respond) argv n w =
      ⟨match (respond (program :: words) w.devices).1 with
        | none => .raised (.runtime ("Tool not found: " ++ program))
        | some result => .returned result,
        es, { w with
          devices := (respond (program :: words) w.devices).2
          processes := w.processes ++ [⟨program :: words, (respond (program :: words) w.devices).1⟩] }⟩ := by
  have hstarted : Bench.runner (Launch.answering respond) argv n w =
      Command.started (Bench.start (Launch.answering respond)) argv n w := by
    unfold Bench.runner
    rw [hw, if_neg (by simp)]
  rw [hstarted]
  unfold Command.started
  rw [Command.words_of_texts htexts, htexts]
  simp only [ofFallible_ok_bind]
  simp only [bind_apply, Run.emit, Bench.start, Launch.answering]
  rcases hanswer : respond (program :: words) w.devices with ⟨_ | result, devices⟩
  · exact ⟨_, rfl⟩
  · have hnotes : Job.Notes (do
        Command.logStream "STDOUT" result.stdout
        Command.logStream "STDERR" result.stderr
        return result : Job (Bench σ τ) CommandResult) result :=
      (Job.Notes.logStream _ _).bind ((Job.Notes.logStream _ _).bind (.pure result))
    obtain ⟨es, hes, -⟩ := hnotes n
      { w with devices, processes := w.processes ++ [⟨program :: words, some result⟩] }
    dsimp only [Ending.result?]
    rw [hes]
    exact ⟨_, rfl⟩

namespace CommandLineTool

/-- The arguments of the commands of a request are texts, namely these. -/
def Spells (call : DeviceCall) (lines : List (List String)) : Prop :=
  ∃ argss, commands call = .ok argss ∧
    List.Forall₂ (fun words args => Command.texts args = .ok words) lines argss

/-- A request with one command. -/
theorem Spells.one {call : DeviceCall} {args : List Value} {words : List String}
    (hcommands : commands call = .ok [args]) (hwords : Command.texts args = .ok words) :
    Spells call [words] :=
  ⟨[args], hcommands, .cons hwords .nil⟩

variable {kit : ToolKit} {respond : List String → τ → Option CommandResult × τ}

/-- A command that must succeed is obeyed. -/
theorem exec_obeys (tool : DeviceTool) {args : List Value} {words : List String}
    (hwords : Command.texts args = .ok words) :
    Job.Obeys [kit.line tool words] ()
      ((kit.tool tool false).exec (Bench.runner (Launch.answering respond)) args :
        Job (Bench σ τ) Unit) := by
  intro n w hw
  have htexts := kit.texts_line tool false hwords
  unfold ToolKit.line at htexts ⊢
  obtain ⟨es, hrun⟩ := Bench.runner_answering respond htexts n hw
  generalize kit.executable tool :: _ = line at hrun ⊢
  unfold exec poll
  rw [bind_apply, Run.rescue, hrun]
  rcases hanswer : (respond line w.devices).1 with _ | result
  · refine ⟨[⟨line, none⟩], hw, rfl, ?_⟩
    refine .stopped (p := ⟨line, none⟩) ?_
    rintro ⟨_, ⟨⟩, _⟩
  · dsimp only
    rw [hwords]
    refine ⟨[⟨line, some result⟩], ?_⟩
    by_cases hcode : result.code = 0
    · rw [if_pos hcode]
      exact ⟨hw, rfl, .next (p := ⟨line, some result⟩) ⟨result, rfl, hcode⟩ .done⟩
    · rw [if_neg hcode]
      refine ⟨hw, rfl, .stopped (p := ⟨line, some result⟩) ?_⟩
      rintro ⟨_, ⟨⟩, h⟩
      exact hcode h

variable {report : Value → Job (Bench σ τ) Unit}
  (hreport : ∀ part percent, part.hundredfold? = some percent → Job.Obeys [] () (report part))
include hreport

theorem flashFrom_obeys (total i : Nat) {images : List Value} {lines : List (List String)}
    (h : List.Forall₂ (fun words image => ∃ args, flashArgs image = .ok args ∧
      Command.texts args = .ok words) lines images) :
    Job.Obeys (lines.map (kit.line .fastboot)) ()
      ((kit.tool .fastboot false).flashFrom (Bench.runner (Launch.answering respond)) report total i
        images) := by
  -- The images that are left are flashed with the same total, so only the index moves on.
  induction h generalizing i with
  | nil => exact hreport _ _ rfl
  | @cons words image _ _ hwords _ ih =>
    obtain ⟨args, hargs, hwords⟩ := hwords
    refine (hreport _ _ rfl).after ?_
    rw [hargs]
    exact (exec_obeys .fastboot hwords).bind (ih (i + 1))

/-- A request other than for flashing obeys its commands. -/
theorem perform_obeys {call : DeviceCall} (hcall : ∀ images, call ≠ .flash images)
    {lines : List (List String)} (hlines : Spells call lines) :
    Job.Obeys (lines.map (kit.line call.tool)) ()
      ((kit.tool call.tool false).perform (Bench.runner (Launch.answering respond)) call report) := by
  obtain ⟨argss, hcommands, hlines⟩ := hlines
  have heach : Job.Obeys (lines.map (kit.line call.tool)) ()
      (Run.each ((kit.tool call.tool false).exec (Bench.runner (Launch.answering respond))) argss :
        Job (Bench σ τ) Unit) :=
    .each (List.forall₂_map_left_iff.mpr (hlines.imp fun _ _ h => exec_obeys _ h))
  have hall : Job.Obeys (lines.map (kit.line call.tool)) ()
      (do Run.each ((kit.tool call.tool false).exec (Bench.runner (Launch.answering respond)))
            (← commands call) : Job (Bench σ τ) Unit) := by
    rw [hcommands]
    exact heach
  cases call with
  | flash images => exact absurd rfl (hcall images)
  | sideload file =>
    rw [perform_sideload, hcommands]
    exact (hreport _ _ rfl).after (heach.before (hreport _ _ rfl))
  | _ => exact hall

end CommandLineTool

/-! ## Hosts with commands for tools -/

section

variable (ctx : Context σ) (kit : ToolKit) (respond : List String → τ → Option CommandResult × τ)

theorem Host.tell_obeys (notice : Notice) :
    Job.Obeys [] () ((ctx.withCommands kit (.answering respond)).host.tell notice) :=
  .of_returned fun _ _ => ⟨_, _, rfl⟩

theorem Host.announce_obeys (status under : String) (determinate : Bool) :
    Job.Obeys [] ()
      ((ctx.withCommands kit (.answering respond)).host.announce status under determinate) :=
  (Host.tell_obeys ctx kit respond _).after
    ((Host.tell_obeys ctx kit respond _).after (Host.tell_obeys ctx kit respond _))

theorem Host.reportProgress_obeys (part percent : Value) (h : part.hundredfold? = some percent) :
    Job.Obeys [] () ((ctx.withCommands kit (.answering respond)).host.reportProgress part) := by
  unfold Host.reportProgress
  rw [h]
  exact Host.tell_obeys ctx kit respond _

/-- A request that is passed on to its tool is obeyed if the tool obeys it. -/
theorem Host.perform_obeys {call : DeviceCall} {lines : List (List String)}
    (h : Job.Obeys lines () ((kit.tool call.tool false).perform
      (Bench.runner (Launch.answering respond)) call
      (ctx.withCommands kit (.answering respond)).host.reportProgress)) :
    Job.Obeys lines () ((ctx.withCommands kit (.answering respond)).host.perform call) := by
  refine (Job.Obeys.emit _).after fun n w hw => ?_
  have htool := h n w hw
  rw [← hw] at htool
  rw [← hw]
  exact htool

theorem Host.spells_obeys {call : DeviceCall} (hcall : ∀ images, call ≠ .flash images)
    {lines : List (List String)} (hlines : CommandLineTool.Spells call lines) :
    Job.Obeys (lines.map (kit.line call.tool)) ()
      ((ctx.withCommands kit (.answering respond)).host.perform call) :=
  Host.perform_obeys ctx kit respond
    (CommandLineTool.perform_obeys (Host.reportProgress_obeys ctx kit respond) hcall hlines)

end

/-! ## Orders -/

/-- A text that may be left out, as a payload has it. -/
def Value.ofText? : Option String → Value
  | none => .null
  | some s => .str s

namespace Builtin

/-- A text that was given and is not empty. -/
def given (text : Option String) : Option String :=
  text.filter fun s => !s.isEmpty

/-- What an entry of a payload says about an image. -/
structure Image where
  partition : String
  group : String
  file : String
  raw : Value := .null

namespace Image

/-- The entry says so. -/
structure Read (x : Image) (entry : Value) : Prop where
  partition : entry.item "partition" = .ok (.str x.partition)
  group : entry.item "group" = .ok (.str x.group)
  file : entry.item "file" = .ok (.str x.file)
  raw : entry.optionalItem "raw" = .ok x.raw

/-- Where the file is. -/
def place (cache : Cache) (x : Image) : String :=
  (cache.path x.group x.file).text

/-- The words that flash the image by the bootloader. -/
def flashWords (cache : Cache) (x : Image) : List String :=
  [if x.raw.truth then "flash:raw" else "flash", x.partition, x.place cache]

/-- The words that name the image in download mode. -/
def downloadWords (cache : Cache) (x : Image) : List String :=
  ["--" ++ x.partition, x.place cache]

end Image

/-- What a verb orders of a device. Texts that may be left out count only if they are not empty. -/
inductive Order where
  | adbFormat (partition : String)
  | sideload (group file : String)
  | adbReboot (state : Option String)
  | adbReconnect
  | flash (images : List Image)
  | erase (partition : String)
  | fastbootFormat (partition : String) (fsType partitionType size : Option String)
  | boot (group file : String) (partition : Option String)
  | update (group file : String)
  | fastbootReboot
  | rebootBootloader
  | continueBoot
  | setActive (slot : String)
  | oemUnlock (code : Option String)
  | heimdallFlash (images : List Image)

namespace Order

/-- The tool that carries the order out. -/
def tool : Order → DeviceTool
  | adbFormat _ | sideload .. | adbReboot _ | adbReconnect => .adb
  | heimdallFlash _ => .heimdall
  | _ => .fastboot

/-- The verb of the order. -/
def verb : Order → String
  | adbFormat _ | fastbootFormat .. => "format"
  | sideload .. => "sideload"
  | adbReboot _ | fastbootReboot => "reboot"
  | adbReconnect => "reconnect"
  | flash _ | heimdallFlash _ => "flash"
  | erase _ => "erase"
  | boot .. => "boot"
  | update .. => "update"
  | rebootBootloader => "reboot_bootloader"
  | continueBoot => "continue"
  | setActive _ => "set_active"
  | oemUnlock _ => "oem_unlock"

/-- The action of the order. -/
def id (order : Order) : String :=
  order.tool.text ++ ":" ++ order.verb

/-- The payload asks for the order. -/
def Asked : Order → Value → Prop
  | adbFormat partition, payload | erase partition, payload =>
    payload.item "partition" = .ok (.str partition)
  | sideload group file, payload | update group file, payload =>
    payload.item "group" = .ok (.str group) ∧ payload.item "file" = .ok (.str file)
  | adbReboot state, payload =>
    (payload.orElse (.mapping [])).optionalItem "to_state" = .ok (.ofText? state)
  | flash images, payload | heimdallFlash images, payload =>
    ∃ entries, payload.listOrEmpty = .ok entries ∧ List.Forall₂ Image.Read images entries
  | fastbootFormat partition fsType partitionType size, payload =>
    payload.item "partition" = .ok (.str partition) ∧
      payload.optionalItem "type" = .ok (.ofText? fsType) ∧
      payload.optionalItem "partitionType" = .ok (.ofText? partitionType) ∧
      payload.optionalItem "size" = .ok (.ofText? size)
  | boot group file partition, payload =>
    payload.item "group" = .ok (.str group) ∧ payload.item "file" = .ok (.str file) ∧
      payload.optionalItem "partition" = .ok (.ofText? partition)
  | setActive slot, payload => payload.item "slot" = .ok (.str slot)
  | oemUnlock code, payload =>
    payload = .ofText? code ∨ payload.optionalItem "code" = .ok (.ofText? code)
  | adbReconnect, _ | fastbootReboot, _ | rebootBootloader, _ | continueBoot, _ => True

/-- The arguments of the commands of the order, in order. -/
def lines (cache : Cache) (settings : Settings) : Order → List (List String)
  | adbFormat partition => [["shell", "twrp", "wipe", partition]]
  | sideload group file => [["sideload", (cache.path group file).text]]
  | adbReboot state =>
    match given state with
    | none => [["reboot"]]
    | some state => [if state = "system" then ["reboot"] else ["reboot", state]]
  | adbReconnect => [["reconnect"]]
  | flash images => images.map (Image.flashWords cache)
  | erase partition => [["erase", partition]]
  | fastbootFormat partition fsType partitionType size =>
    match given fsType <|> given partitionType, given size with
    | none, _ => [["format", partition]]
    | some system, none => [["format:" ++ system, partition]]
    | some system, some size => [["format:" ++ system ++ ":" ++ size, partition]]
  | boot group file partition =>
    match given partition with
    | none => [["boot", (cache.path group file).text]]
    | some partition => [["flash", partition, (cache.path group file).text], ["reboot"]]
  | update group file =>
    if ((settings.get? (.str "wipe")).getD (.bool false)).truth then
      [["-w", "update", (cache.path group file).text]]
    else [["update", (cache.path group file).text]]
  | fastbootReboot => [["reboot"]]
  | rebootBootloader => [["reboot-bootloader"]]
  | continueBoot => [["continue"]]
  | setActive slot => [["--set-active=" ++ slot]]
  | oemUnlock code =>
    match given code with
    | none => [["flashing", "unlock"]]
    | some code => [["oem", "unlock", code]]
  | heimdallFlash images => ["flash" :: images.flatMap (Image.downloadWords cache)]

/-- The handler of the order. -/
def handler : Order → Handler σ
  | adbFormat _ => Builtin.adbFormat
  | sideload .. => Builtin.sideload
  | adbReboot _ => Builtin.adbReboot
  | adbReconnect => Builtin.adbReconnect
  | flash _ => Builtin.flash
  | erase _ => Builtin.erase
  | fastbootFormat .. => Builtin.fastbootFormat
  | boot .. => Builtin.boot
  | update .. => Builtin.update
  | fastbootReboot => plain "Rebooting" "Rebooting system" .fastbootReboot
  | rebootBootloader => plain "Rebooting" "Rebooting to bootloader" .rebootBootloader
  | continueBoot => plain "Continuing boot" "Resuming boot" .continueBoot
  | setActive _ => Builtin.setActive
  | oemUnlock _ => Builtin.oemUnlock
  | heimdallFlash _ => Builtin.heimdallFlash

theorem splitFirst_id (order : Order) :
    Text.splitFirst ':' order.id = some (order.tool.text, order.verb) := by
  have htool : ':' ∉ order.tool.text.toList := by
    cases order.tool <;> decide
  exact Text.splitFirst_append htool

theorem dispatch_eq (order : Order) (payload : Value) :
    (Action.named order.id payload).dispatch =
      .ok ⟨order.id, order.tool.text, order.verb, payload⟩ := by
  have htool : order.tool.text.isEmpty = false := by
    cases order.tool <;> rfl
  have hverb : order.verb.isEmpty = false := by
    cases order <;> rfl
  have hid : (Action.named order.id payload).id.shown = .ok order.id := rfl
  unfold Action.dispatch
  rw [hid]
  simp only [bind, Except.bind, order.splitFirst_id, htool, hverb]
  rfl

theorem handler?_eq (order : Order) : table.handler? order.id = some (order.handler : Handler σ) := by
  unfold ActionTable.handler? ActionTable.splitId
  rw [order.splitFirst_id]
  cases order <;> rfl

end Order

/-! ## Handlers of orders -/

theorem given_cases (s : Option String) :
    (given s = none ∧ (Value.ofText? s).truth = false) ∨
      ∃ text, given s = some text ∧ Value.ofText? s = .str text ∧ (Value.str text).truth = true := by
  cases s with
  | none => exact .inl ⟨rfl, rfl⟩
  | some s =>
    have hgiven : given (some s) = if (!s.isEmpty) = true then some s else none := rfl
    rw [hgiven]
    cases hs : s.isEmpty with
    | true => exact .inl ⟨rfl, congrArg not hs⟩
    | false => exact .inr ⟨s, rfl, rfl, congrArg not hs⟩

theorem ofText?_orElse (s s' : Option String) :
    ∃ t, (Value.ofText? s).orElse (.ofText? s') = .ofText? t ∧ given t = (given s <|> given s') := by
  rcases given_cases s with ⟨hgiven, htruth⟩ | ⟨text, hgiven, htext, htruth⟩
  · refine ⟨s', ?_, by rw [hgiven]; rfl⟩
    rw [Value.orElse, htruth]
    rfl
  · refine ⟨s, ?_, by rw [hgiven]; rfl⟩
    rw [Value.orElse, htext, htruth]
    rfl

theorem ofText?_orElse_str (s : Option String) (t : String) :
    ∃ text, (Value.ofText? s).orElse (.str t) = .str text := by
  rcases given_cases s with ⟨-, htruth⟩ | ⟨text, -, htext, htruth⟩
  · exact ⟨t, by rw [Value.orElse, htruth]; rfl⟩
  · exact ⟨text, by rw [htext, Value.orElse, htruth]; rfl⟩

namespace Image

/-- The entry names the image, with the place of its file. -/
structure Placed (cache : Cache) (x : Image) (entry : Value) : Prop where
  partition : entry.item "partition" = .ok (.str x.partition)
  file : entry.item "file" = .ok (.str (x.place cache))
  raw : entry.optionalItem "raw" = .ok x.raw

variable {cache : Cache}

variable (cache) in
theorem Read.placed {x : Image} {entry : Value} (h : x.Read entry) :
    ∃ image, imageEntry cache entry = .ok image ∧ x.Placed cache image := by
  obtain ⟨hpartition, hgroup, hfile, hraw⟩ := h
  cases entry with
  | mapping es =>
    refine ⟨.mapping (Entries.put (.str "file") (.str (x.place cache)) es), ?_, ?_, ?_, ?_⟩
    · unfold imageEntry
      rw [hgroup, hfile]
      rfl
    · rw [← hpartition]
      simp only [Value.item, Entries.field?_put]
      rfl
    · simp only [Value.item, Entries.field?_put]
      rfl
    · rw [← hraw]
      simp only [Value.optionalItem, Entries.fieldD, Entries.field?_put]
      rfl
  | _ => cases hgroup

variable (cache) in
theorem placed_all {xs : List Image} {entries : List Value} (h : List.Forall₂ Image.Read xs entries) :
    ∃ images, imageEntries cache entries = .ok images ∧ List.Forall₂ (Placed cache) xs images := by
  induction h with
  | nil => exact ⟨[], rfl, .nil⟩
  | cons hentry _ ih =>
    obtain ⟨image, himage, hplaced⟩ := hentry.placed cache
    obtain ⟨images, himages, hall⟩ := ih
    refine ⟨image :: images, ?_, .cons hplaced hall⟩
    rw [imageEntries, himage]
    dsimp only
    rw [himages]
    rfl

theorem Placed.flashArgs {x : Image} {image : Value} (h : x.Placed cache image) :
    ∃ args, CommandLineTool.flashArgs image = .ok args ∧
      Command.texts args = .ok (x.flashWords cache) := by
  refine ⟨(x.flashWords cache).map .str, ?_, rfl⟩
  unfold CommandLineTool.flashArgs
  rw [h.raw, h.partition, h.file]
  rfl

theorem imageArgs_placed {xs : List Image} {images : List Value}
    (h : List.Forall₂ (Placed cache) xs images) :
    ∃ args, CommandLineTool.imageArgs images = .ok args ∧
      Command.texts args = .ok (xs.flatMap (downloadWords cache)) := by
  induction h with
  | nil => exact ⟨[], rfl, rfl⟩
  | @cons x image _ _ hplaced _ ih =>
    obtain ⟨args, hargs, htexts⟩ := ih
    refine ⟨.str ("--" ++ x.partition) :: .str (x.place cache) :: args, ?_, ?_⟩
    · rw [CommandLineTool.imageArgs, hplaced.partition, hplaced.file, hargs]
      rfl
    · simp only [Command.texts, Value.asText, htexts, List.flatMap_cons]
      rfl

end Image

/-! ### What orders spell -/

open CommandLineTool (Spells)

theorem str_beq (s t : String) : (Value.str s == .str t) = (s == t) :=
  Value.same.eq_def _ _

section

variable (cache : Cache) (settings : Settings)

theorem adbReboot_spells (state : Option String) :
    Spells (.adbReboot ((Value.ofText? state).orElse (.str "system")))
      ((Order.adbReboot state).lines cache settings) := by
  rcases given_cases state with ⟨hgiven, htruth⟩ | ⟨text, hgiven, htext, htruth⟩
  · rw [Value.orElse, htruth, if_neg Bool.false_ne_true, Order.lines, hgiven]
    refine .one rfl ?_
    rw [str_beq, str_beq]
    rfl
  · have hempty : text ≠ "" := by
      rintro rfl
      cases htruth
    rw [htext, Value.orElse, htruth, if_pos rfl, Order.lines, hgiven]
    refine .one rfl ?_
    rw [str_beq, str_beq]
    by_cases hsystem : text = "system"
    · simp [hsystem, Command.texts, Value.asText, Except.map]
    · simp [hempty, hsystem, Command.texts, Value.asText, Except.map]

theorem fastbootFormat_spells (partition : String) (fsType partitionType size : Option String) :
    Spells (.fastbootFormat (.str partition)
        ((Value.ofText? fsType).orElse (.ofText? partitionType)) (.ofText? size))
      ((Order.fastbootFormat partition fsType partitionType size).lines cache settings) := by
  obtain ⟨system, heq, hsystem⟩ := ofText?_orElse fsType partitionType
  rw [heq, Order.lines, ← hsystem]
  -- The one word that depends on what was given.
  have hword {word : String}
      (h : CommandLineTool.formatCommand (.ofText? system) (.ofText? size) = .ok word) :
      Spells (.fastbootFormat (.str partition) (.ofText? system) (.ofText? size))
        [[word, partition]] :=
    .one (by rw [CommandLineTool.commands, h]; rfl) rfl
  rcases given_cases system with ⟨hgiven, htruth⟩ | ⟨text, hgiven, htext, htruth⟩
  · rw [hgiven]
    refine hword ?_
    rw [CommandLineTool.formatCommand, htruth]
    rfl
  rcases given_cases size with ⟨hgiven', htruth'⟩ | ⟨text', hgiven', htext', htruth'⟩
  · rw [hgiven, hgiven']
    refine hword ?_
    rw [CommandLineTool.formatCommand, htext, htruth, htruth']
    rfl
  · rw [hgiven, hgiven']
    refine hword ?_
    rw [CommandLineTool.formatCommand, htext, htruth, htext', htruth']
    rfl

theorem boot_spells (group file : String) (partition : Option String) :
    Spells (.boot (.str (cache.path group file).text) (.ofText? partition))
      ((Order.boot group file partition).lines cache settings) := by
  rcases given_cases partition with ⟨hgiven, htruth⟩ | ⟨text, hgiven, htext, htruth⟩
  · rw [Order.lines, hgiven]
    refine .one (congrArg Except.ok (if_neg (by simp [htruth]))) rfl
  · rw [Order.lines, hgiven, htext]
    exact ⟨_, congrArg Except.ok (if_pos htruth), .cons rfl (.cons rfl .nil)⟩

theorem update_spells (group file : String) :
    Spells (.update (.str (cache.path group file).text)
        ((settings.get? (.str "wipe")).getD (.bool false)).truth)
      ((Order.update group file).lines cache settings) := by
  rw [Order.lines]
  cases ((settings.get? (.str "wipe")).getD (.bool false)).truth <;> exact .one rfl rfl

theorem oemUnlock_spells (code : Option String) :
    Spells (.oemUnlock (.ofText? code)) ((Order.oemUnlock code).lines cache settings) := by
  rcases given_cases code with ⟨hgiven, htruth⟩ | ⟨text, hgiven, htext, htruth⟩
  · rw [Order.lines, hgiven]
    exact .one (if_neg (by simp [htruth])) rfl
  · rw [Order.lines, hgiven, htext]
    exact .one (if_pos htruth) rfl

end

section

variable (ctx : Context σ) (kit : ToolKit) (respond : List String → τ → Option CommandResult × τ)

/-- What a handler does that announces a request, puts it, and has nothing to return. -/
theorem request_obeys (status under : String) (determinate : Bool) {call : DeviceCall}
    {lines : List (List String)} {finish : Job (Bench σ τ) Value}
    (hcall : Job.Obeys lines ()
      ((ctx.withCommands kit (.answering respond)).host.perform call))
    (hfinish : Job.Obeys [] .null finish) :
    Job.Obeys lines .null (do
      (ctx.withCommands kit (.answering respond)).host.announce status under determinate
      (ctx.withCommands kit (.answering respond)).host.perform call
      finish) :=
  (Host.announce_obeys ctx kit respond status under determinate).after (hcall.before hfinish)

theorem cachedFile_eq {ctx : Context σ} {payload : Value} {group file : String}
    (hgroup : payload.item "group" = .ok (.str group))
    (hfile : payload.item "file" = .ok (.str file)) :
    ctx.cachedFile payload = .ok (.str (ctx.cache.path group file).text) := by
  unfold Context.cachedFile
  rw [hgroup, hfile]
  rfl

/-! ### Handlers -/

theorem flash_obeys {images : List Image} {payload : Value} (hasked : (Order.flash images).Asked payload) :
    Job.Obeys (((Order.flash images).lines ctx.cache ctx.settings).map (kit.line .fastboot)) .null
      (flash payload (ctx.withCommands kit (.answering respond))) := by
  obtain ⟨entries, hentries, hread⟩ := hasked
  obtain ⟨placed, hplaced, hall⟩ := Image.placed_all ctx.cache hread
  have hcache : (ctx.withCommands kit (.answering respond)).cache = ctx.cache := rfl
  unfold flash
  rw [hentries, hcache]
  simp only [ofFallible_ok_bind, hplaced]
  refine request_obeys ctx kit respond _ _ _ (Host.perform_obeys ctx kit respond ?_)
    ((Host.tell_obeys ctx kit respond _).after (.pure _))
  refine CommandLineTool.flashFrom_obeys (Host.reportProgress_obeys ctx kit respond) _ _ ?_
  exact List.forall₂_map_left_iff.mpr (hall.imp fun _ _ h => h.flashArgs)

theorem heimdallFlash_obeys {images : List Image} {payload : Value}
    (hasked : (Order.heimdallFlash images).Asked payload) :
    Job.Obeys (((Order.heimdallFlash images).lines ctx.cache ctx.settings).map (kit.line .heimdall))
      .null (heimdallFlash payload (ctx.withCommands kit (.answering respond))) := by
  obtain ⟨entries, hentries, hread⟩ := hasked
  obtain ⟨placed, hplaced, hall⟩ := Image.placed_all ctx.cache hread
  obtain ⟨args, hargs, htexts⟩ := Image.imageArgs_placed hall
  have hcache : (ctx.withCommands kit (.answering respond)).cache = ctx.cache := rfl
  unfold heimdallFlash
  rw [hentries, hcache]
  simp only [ofFallible_ok_bind, hplaced]
  have hcommands : CommandLineTool.commands (.heimdallFlash placed) = .ok [.str "flash" :: args] := by
    rw [CommandLineTool.commands, hargs]
    rfl
  have hwords : Command.texts (.str "flash" :: args) =
      .ok ("flash" :: images.flatMap (Image.downloadWords ctx.cache)) := by
    rw [Command.texts, htexts]
    rfl
  exact request_obeys ctx kit respond _ _ _
    (Host.spells_obeys ctx kit respond (by simp) (.one hcommands hwords)) (.pure _)

/-- A handler that puts one request obeys the commands that the request spells. -/
theorem spelled_obeys (status under : String) (determinate : Bool) {call : DeviceCall}
    (hcall : ∀ images, call ≠ .flash images) {lines : List (List String)}
    (hspells : Spells call lines) {finish : Job (Bench σ τ) Value}
    (hfinish : Job.Obeys [] .null finish) :
    Job.Obeys (lines.map (kit.line call.tool)) .null (do
      (ctx.withCommands kit (.answering respond)).host.announce status under determinate
      (ctx.withCommands kit (.answering respond)).host.perform call
      finish) :=
  request_obeys ctx kit respond status under determinate
    (Host.spells_obeys ctx kit respond hcall hspells) hfinish

/-- A handler obeys its order. -/
theorem handler_obeys (order : Order) {payload : Value} (hasked : order.Asked payload) :
    Job.Obeys ((order.lines ctx.cache ctx.settings).map (kit.line order.tool)) .null
      (order.handler payload (ctx.withCommands kit (.answering respond))) := by
  have hspelled := @spelled_obeys σ τ ctx kit respond
  have htell := Host.tell_obeys ctx kit respond
  cases order with
  | adbFormat partition =>
    have hpartition : payload.item "partition" = .ok (.str partition) := hasked
    show Job.Obeys _ _ (Builtin.adbFormat payload _)
    unfold Builtin.adbFormat
    simp only [hpartition, ofFallible_ok_bind, Value.shown_str]
    exact hspelled _ _ _ (by simp) (.one rfl rfl) (.pure _)
  | sideload group file =>
    obtain ⟨hgroup, hfile⟩ := hasked
    show Job.Obeys _ _ (Builtin.sideload payload _)
    unfold Builtin.sideload
    simp only [hgroup, cachedFile_eq hgroup hfile, ofFallible_ok_bind, Value.shown_str]
    exact hspelled _ _ _ (by simp) (.one rfl rfl) ((htell _).after (.pure _))
  | adbReboot state =>
    have hstate : (payload.orElse (.mapping [])).optionalItem "to_state" = .ok (.ofText? state) :=
      hasked
    show Job.Obeys _ _ (Builtin.adbReboot payload _)
    obtain ⟨text, htext⟩ := ofText?_orElse_str state "system"
    have hcall := adbReboot_spells ctx.cache ctx.settings state
    unfold Builtin.adbReboot
    rw [hstate]
    simp only [ofFallible_ok_bind, htext] at hcall ⊢
    exact hspelled _ _ _ (by simp) hcall (.pure _)
  | flash images => exact flash_obeys ctx kit respond hasked
  | erase partition =>
    have hpartition : payload.item "partition" = .ok (.str partition) := hasked
    show Job.Obeys _ _ (Builtin.erase payload _)
    unfold Builtin.erase
    simp only [hpartition, ofFallible_ok_bind, Value.shown_str]
    exact hspelled _ _ _ (by simp) (.one rfl rfl) (.pure _)
  | fastbootFormat partition fsType partitionType size =>
    obtain ⟨hpartition, htype, hpartitionType, hsize⟩ := hasked
    have hcall := fastbootFormat_spells ctx.cache ctx.settings partition fsType partitionType size
    show Job.Obeys _ _ (Builtin.fastbootFormat payload _)
    unfold Builtin.fastbootFormat
    rw [hpartition, htype, hpartitionType, hsize]
    simp only [ofFallible_ok_bind]
    exact hspelled _ _ _ (by simp) hcall (.pure _)
  | boot group file partition =>
    obtain ⟨hgroup, hfile, hpartition⟩ := hasked
    show Job.Obeys _ _ (Builtin.boot payload _)
    unfold Builtin.boot
    rw [hpartition, cachedFile_eq hgroup hfile]
    simp only [ofFallible_ok_bind]
    exact hspelled _ _ _ (by simp) (boot_spells ctx.cache ctx.settings group file partition)
      (.pure _)
  | update group file =>
    obtain ⟨hgroup, hfile⟩ := hasked
    show Job.Obeys _ _ (Builtin.update payload _)
    unfold Builtin.update
    rw [cachedFile_eq hgroup hfile]
    simp only [ofFallible_ok_bind]
    exact hspelled _ _ _ (by simp) (update_spells ctx.cache ctx.settings group file) (.pure _)
  | oemUnlock code =>
    have hcall := oemUnlock_spells ctx.cache ctx.settings code
    rcases hasked with rfl | hfield
    · cases code <;> exact hspelled _ _ _ (by simp) hcall (.pure _)
    · cases payload with
      | mapping es =>
        have hcode : Entries.fieldD "code" es = .ofText? code := Except.ok.inj hfield
        rw [← hcode] at hcall
        exact hspelled _ _ _ (by simp) hcall (.pure _)
      | _ => cases hfield
  | setActive slot =>
    have hslot : payload.item "slot" = .ok (.str slot) := hasked
    show Job.Obeys _ _ (Builtin.setActive payload _)
    unfold Builtin.setActive
    simp only [hslot, ofFallible_ok_bind, Value.shown_str]
    exact hspelled _ _ _ (by simp) (.one rfl rfl) (.pure _)
  | heimdallFlash images => exact heimdallFlash_obeys ctx kit respond hasked
  | adbReconnect | fastbootReboot | rebootBootloader | continueBoot =>
    exact hspelled _ _ _ (by simp) (.one rfl rfl) (.pure _)

end

/-! ## Actions -/

/-- The action of an order starts one process after the other for its commands, up to the first one
that does not succeed. It is through exactly if all succeeded, and then there was one for every
command; otherwise it fails, and its failure has the kind that the last process shows. -/
theorem order_obeyed (ctx : Context σ) (kit : ToolKit)
    (respond : List String → τ → Option CommandResult × τ) (order : Order) {payload : Value}
    (hasked : order.Asked payload) (runSteps : List Step → Flow (Bench σ τ) Unit) (n : Nat)
    (w : Bench σ τ) (hreal : w.dryRun = false) :
    let lines := (order.lines ctx.cache ctx.settings).map (kit.line order.tool)
    let t := Flow.action runSteps table (ctx.withCommands kit (.answering respond))
      (.named order.id payload) n w
    ∃ ps, t.world.processes = w.processes ++ ps ∧ ps.map Process.argv <+: lines ∧
      (t.ending = .returned () ↔ ∀ p ∈ ps, p.Succeeded) ∧
      (t.ending = .returned () → ps.map Process.argv = lines) ∧
      (t.ending ≠ .returned () → ∃ qs p message, ps = qs ++ [p] ∧ (∀ q ∈ qs, q.Succeeded) ∧
        ¬ p.Succeeded ∧
        t.ending = .raised (.inAction order.id (.failure p.failureKind message))) := by
  intro lines t
  obtain ⟨ps, -, hprocesses, hobeyed⟩ :=
    handler_obeys ctx kit respond order hasked n w hreal
  obtain ⟨hending, hworld⟩ := Flow.action_plain (order.dispatch_eq payload) order.handler?_eq
    runSteps (ctx.withCommands kit (.answering respond)) n w fun v hv => by
      rcases hobeyed.outcome with ⟨hreturned, -⟩ | ⟨_, _, _, -, -, -, hraised⟩
      · cases hv.symm.trans hreturned
        rfl
      · cases hv.symm.trans hraised
  rw [← hworld] at hprocesses
  refine ⟨ps, hprocesses, hobeyed.argv_prefix, ?_⟩
  rcases hobeyed.outcome with ⟨hreturned, hall, hps⟩ | ⟨qs, p, message, rfl, hqs, hp, hraised⟩
  · rw [hreturned] at hending
    exact ⟨⟨fun _ => hps, fun _ => hending⟩, fun _ => hall, fun h => absurd hending h⟩
  · rw [hraised] at hending
    refine ⟨⟨fun h => ?_, fun h => absurd (h p (by simp)) hp⟩, fun h => ?_,
      fun _ => ⟨qs, p, message, rfl, hqs, hp, hending⟩⟩
    all_goals cases hending.symm.trans h

/-- Three images are to be flashed, and the bootloader closes the connection with the second one: the
third one is left alone, and the failure says that the device is offline. -/
theorem lost_connection_stops_flashing :
    let ctx : Context Unit := {
      device := default, system := default, settings := {}, host := .answering {}
      cache := ⟨⟨"/", ["c"]⟩, "dev"⟩ }
    let respond (_ : List String) (count : Nat) : Option CommandResult × Nat :=
      (some (if count = 1 then { argv := [], code := 1, stderr := "error: closed" }
        else { argv := [] }), count + 1)
    let entry (partition : String) : Value := .mapping [(.str "partition", .str partition),
      (.str "group", .str "g"), (.str "file", .str "f.img")]
    let payload : Value := .list [entry "boot", entry "vendor", entry "system"]
    let t := Flow.action (fun _ => return) table (ctx.withCommands {} (.answering respond))
      (.named "fastboot:flash" payload) 0 { rest := (), devices := 0 }
    t.world.processes.map Process.argv =
        [["fastboot", "flash", "boot", "/c/dev/g/f.img"],
          ["fastboot", "flash", "vendor", "/c/dev/g/f.img"]] ∧
      ∃ message, t.ending = .raised (.inAction "fastboot:flash" (.failure .deviceOffline message)) := by
  intro ctx respond entry payload t
  let order : Order := .flash [⟨"boot", "g", "f.img", .null⟩, ⟨"vendor", "g", "f.img", .null⟩,
    ⟨"system", "g", "f.img", .null⟩]
  have hread (partition : String) : Image.Read ⟨partition, "g", "f.img", .null⟩ (entry partition) :=
    ⟨by cbv, by cbv, by cbv, by cbv⟩
  have hasked : order.Asked payload :=
    ⟨_, by cbv, .cons (hread _) (.cons (hread _) (.cons (hread _) .nil))⟩
  obtain ⟨ps, hprocesses, -, hsucceeded, -, hfailed⟩ := order_obeyed ctx {} respond order hasked
    (fun _ => return) 0 { rest := (), devices := 0 } rfl
  have hstarted : t.world.processes.map Process.argv =
      [["fastboot", "flash", "boot", "/c/dev/g/f.img"],
        ["fastboot", "flash", "vendor", "/c/dev/g/f.img"]] := by
    decide +kernel
  have hkind : t.world.processes.getLast?.map Process.failureKind = some .deviceOffline := by
    decide +kernel
  have hcode : some 1 ∈ t.world.processes.map fun p => p.result.map CommandResult.code := by
    decide +kernel
  refine ⟨hstarted, ?_⟩
  have hps : t.world.processes = ps := hprocesses
  have hstopped : t.ending ≠ .returned () := by
    intro hreturned
    obtain ⟨p, hp, hcode⟩ := List.mem_map.mp hcode
    obtain ⟨result, hresult, hzero⟩ := hsucceeded.mp hreturned p (hps ▸ hp)
    rw [hresult, Option.map_some, hzero] at hcode
    cases hcode
  obtain ⟨qs, p, message, rfl, -, -, hended⟩ := hfailed hstopped
  rw [hps, List.getLast?_concat, Option.map_some] at hkind
  rw [Option.some.inj hkind] at hended
  exact ⟨message, hended⟩

end Builtin

end Reflash
