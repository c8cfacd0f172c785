import Reflash.Proofs.Rehearsal

set_option autoImplicit false

/-! # Rehearsals of device tools

What a device tool does to a device is a sequence of commands, and a rehearsal of it is the record
of these commands.

A command on a device goes one of few ways (`Attempted`), and only where it leads to a process does
it have any effect. From that follow the rehearsals of the two kinds of command: one that must
succeed is recorded (`exec_rehearses`), and an access poll is left out, as if a device could be
reached (`hasAccess_rehearses`). No command of a request is an access poll (`commands_works`), so
what is recorded of a request is all that it carries out (`perform_rehearses`). -/

namespace Reflash

open Run

variable {σ τ α β : Type}

/-! ## Words of commands -/

namespace Command

theorem words_error {argv : List Value} {e : Fault} (h : words argv = .error e) :
    e = .mistyped := by
  induction argv with
  | nil => cases h
  | cons v vs ih =>
    rw [words] at h
    cases hv : word v with
    | error e' =>
      rw [hv] at h
      cases h
      unfold word at hv
      split at hv
      · cases hv
      · split at hv
        · cases hv
          rfl
        · cases hv
    | ok s =>
      rw [hv] at h
      cases hvs : words vs with
      | error e' =>
        rw [hvs] at h
        cases h
        exact ih hvs
      | ok ss =>
        rw [hvs] at h
        cases h

theorem texts_str {s : String} {argv : List Value} {line : List String}
    (h : texts (.str s :: argv) = .ok line) : ∃ rest, texts argv = .ok rest ∧ line = s :: rest := by
  rw [texts] at h
  cases hargv : texts argv with
  | error e =>
    simp only [Value.asText, hargv] at h
    cases h
  | ok rest =>
    simp only [Value.asText, hargv] at h
    cases h
    exact ⟨rest, rfl, rfl⟩

/-- The words with which a command is started are those that are recorded. -/
theorem words_of_texts {argv : List Value} {ss : List String} (h : texts argv = .ok ss) :
    words argv = .ok ss := by
  induction argv generalizing ss with
  | nil => exact h
  | cons v vs ih =>
    rw [texts] at h
    cases v with
    | str s =>
      cases hvs : texts vs with
      | error e =>
        simp only [Value.asText, hvs] at h
        cases h
      | ok ss' =>
        simp only [Value.asText, hvs] at h
        rw [words, ih hvs]
        exact h
    | _ => cases h

end Command

/-! ## How commands go -/

/-- The ways in which a command can go that is not part of a dry run: it cannot be put on the
record; it is put there, but cannot be started; or it is started, and then it ends with the result of
the process if there is one, and leaves no other trace than lines of the record. -/
inductive Attempted (argv : List Value) (w : Bench σ τ) :
    Trail Signal (Bench σ τ) CommandResult → Prop
  | unreadable (h : Command.words argv = .error .mistyped) :
    Attempted argv w ⟨.raised .mistyped, [], w⟩
  | unstarted {line : List String} {e : Fault} (hline : Command.words argv = .ok line) :
    Attempted argv w ⟨.raised e, [.commanded line], w⟩
  | started {p : Process} {o : Ending CommandResult} {es : List Signal} {w' : Bench σ τ}
    (hline : Command.texts argv = .ok p.argv) (hrecorded : recorded some es = [])
    (hshown : shown some es = []) (real : w'.dryRun = false) (hrest : w'.rest = w.rest)
    (processes : w'.processes = w.processes ++ [p])
    (ending : ∀ result, p.result = some result → o = .returned result) :
    Attempted argv w ⟨o, .commanded p.argv :: es, w'⟩

/-- The job only adds lines to the record, and returns the value. -/
def Job.Notes (job : Job σ α) (a : α) : Prop :=
  ∀ n w, ∃ es, job n w = ⟨.returned a, es, w⟩ ∧ recorded some es = [] ∧ shown some es = []

namespace Job.Notes

theorem pure (a : α) : Job.Notes (Pure.pure a : Job σ α) a :=
  fun _ _ => ⟨[], rfl, rfl, rfl⟩

theorem bind {job : Job σ α} {a : α} {next : α → Job σ β} {b : β} (h : job.Notes a)
    (hnext : (next a).Notes b) : Job.Notes (job >>= next) b := by
  intro n w
  obtain ⟨es, hjob, hrecorded, hshown⟩ := h n w
  obtain ⟨es', hnext, hrecorded', hshown'⟩ := hnext n w
  refine ⟨es ++ es', ?_, ?_, ?_⟩
  · rw [bind_apply, hjob]
    dsimp only
    rw [hnext]
  · rw [recorded_append, hrecorded, hrecorded', List.append_nil]
  · rw [shown_append, hshown, hshown', List.append_nil]

theorem logStream (name content : String) :
    Job.Notes (Command.logStream name content : Job σ Unit) () := by
  unfold Command.logStream
  split
  · exact pure ()
  · exact fun _ _ => ⟨_, rfl, rfl, rfl⟩

end Job.Notes

theorem Bench.runner_attempted (launch : Launch τ) (program : String) (args : List Value)
    (n : Nat) {w : Bench σ τ} (hw : w.dryRun = false) :
    Attempted (.str program :: args) w (Bench.runner launch (.str program :: args) n w) := by
  unfold Bench.runner
  rw [hw, if_neg (by simp)]
  unfold Command.started
  rcases hwords : Command.words (.str program :: args) with e | line
  · cases Command.words_error hwords
    exact .unreadable hwords
  rcases htexts : Command.texts (.str program :: args) with e | line'
  · exact .unstarted hwords
  cases hwords.symm.trans (Command.words_of_texts htexts)
  obtain ⟨rest, -, rfl⟩ := Command.texts_str htexts
  -- From here on the process is started, however it ends.
  simp only [ofFallible_ok_bind]
  simp only [bind_apply, Run.emit, Bench.start]
  rcases hlaunch : launch (program :: rest) w.devices with ⟨⟨_ | result⟩ | e | _, devices⟩
  · exact .started (p := ⟨program :: rest, none⟩) htexts rfl rfl hw rfl rfl (by simp)
  · have hnotes : Job.Notes (do
        Command.logStream "STDOUT" result.stdout
        Command.logStream "STDERR" result.stderr
        return result : Job (Bench σ τ) CommandResult) result :=
      (Job.Notes.logStream _ _).bind ((Job.Notes.logStream _ _).bind (.pure result))
    obtain ⟨es, hes, hrecorded, hshown⟩ := hnotes n
      { w with devices, processes := w.processes ++ [⟨program :: rest, some result⟩] }
    dsimp only [Ending.result?]
    rw [hes]
    exact .started (p := ⟨program :: rest, some result⟩) htexts hrecorded hshown hw rfl rfl
      (by simp)
  · exact .started (p := ⟨program :: rest, none⟩) htexts rfl rfl hw rfl rfl (by simp)
  · exact .started (p := ⟨program :: rest, none⟩) htexts rfl rfl hw rfl rfl (by simp)

namespace CommandLineTool

variable {kit : ToolKit} (launch : Launch τ)

theorem poll_attempted (t : CommandLineTool) (args : List Value) (n : Nat) {w : Bench σ τ}
    (hw : w.dryRun = false) :
    Attempted (t.argv args) w (t.poll (Bench.runner launch) args n w) := by
  obtain ⟨words, hwords⟩ : ∃ words, t.argv args = .str t.executable :: words := ⟨_, rfl⟩
  unfold poll Run.rescue
  rw [hwords]
  have h := Bench.runner_attempted launch t.executable words n hw
  generalize Bench.runner launch _ n w = trail at h
  cases h with
  | unreadable h => exact .unreadable h
  | @unstarted line e hline => cases e <;> exact .unstarted hline
  | @started p o es w' hline hrecorded hshown real hrest processes ending =>
    have raised (e : Fault) (ho : o = .raised e) (result : CommandResult) :
        p.result ≠ some result := by
      intro h
      cases ho.symm.trans (ending result h)
    cases o with
    | returned result => exact .started hline hrecorded hshown real hrest processes ending
    | unfinished => exact .started hline hrecorded hshown real hrest processes ending
    | raised e =>
      -- Whatever the fault is turned into, the process is the same, and has no result.
      have hstarted (e' : Fault) :
          Attempted (.str t.executable :: words) w
            ⟨.raised e', .commanded p.argv :: es ++ [], w'⟩ := by
        rw [List.append_nil]
        exact .started hline hrecorded hshown real hrest processes fun result h =>
          absurd h (raised e rfl result)
      dsimp only
      split <;> exact hstarted _

/-- A command and what is made of its result without doing anything else, compared with what comes
of it in a rehearsal. The rehearsal has to agree where the command cannot be put on the record, and
where the process succeeds. -/
theorem carries_of_attempted {argv : List Value} {w : Bench σ τ} {n : Nat} (hw : w.dryRun = false)
    {job : Job (Bench σ τ) CommandResult} (hjob : Attempted argv w (job n w))
    {next : CommandResult → Job (Bench σ τ) β}
    (hnext : ∀ result n w, ∃ o, next result n w = ⟨o, [], w⟩)
    {t : Trail Signal σ β} (hworld : t.world = w.rest)
    (unreadable : Command.words argv = .error .mistyped →
      t.ending = .raised .mistyped ∧ t.events = [])
    (succeeded : ∀ p result, Command.texts argv = .ok p.argv → p.result = some result →
      kit.Succeeded p → (∀ n w, next result n w = ⟨t.ending, [], w⟩) ∧
        shown some t.events = [] ∧ recorded some t.events = kit.executed [p]) :
    ∃ ps, Carries kit some w ps t ((job >>= next) n w) := by
  rw [bind_apply]
  generalize job n w = trail at hjob
  cases hjob with
  | unreadable h =>
    obtain ⟨hending, hevents⟩ := unreadable h
    refine ⟨[], hw, (List.append_nil _).symm, Nat.zero_le _, fun _ _ => ?_⟩
    rw [hevents]
    exact ⟨hending.symm, hworld.symm, rfl, rfl⟩
  | unstarted =>
    -- One command is recorded and none started, so nothing is claimed.
    exact ⟨[], hw, (List.append_nil _).symm, Nat.zero_le _, fun hall => by cases hall⟩
  | @started p o es w' hline hrecorded hshown real hrest processes ending =>
    have hone : recorded some (.commanded p.argv :: es) = [p.argv] := by
      show p.argv :: recorded some es = _
      rw [hrecorded]
    have hnone : shown some (.commanded p.argv :: es) = [] := hshown
    have hstarted : [p].length ≤ (recorded some (.commanded p.argv :: es)).length := by
      rw [hone]
      exact Nat.le_refl 1
    -- A process without a result has not succeeded.
    have fails (h : ∀ result, o ≠ .returned result) (hp : ∀ q ∈ [p], kit.Succeeded q) : False := by
      obtain ⟨result, hresult, -⟩ := hp p (List.mem_singleton.mpr rfl)
      exact h result (ending result hresult)
    cases o with
    | returned result =>
      obtain ⟨o, ho⟩ := hnext result n w'
      dsimp only
      rw [ho]
      dsimp only
      rw [List.append_nil]
      refine ⟨[p], real, processes, hstarted, fun _ hp => ?_⟩
      obtain ⟨result', hresult, hcode⟩ := hp p (List.mem_singleton.mpr rfl)
      cases ending result' hresult
      obtain ⟨heq, hshown', hrecorded'⟩ :=
        succeeded p result hline hresult ⟨result, hresult, hcode⟩
      cases ho.symm.trans (heq n w')
      exact ⟨rfl, hrest.trans hworld.symm, hnone.trans hshown'.symm, hrecorded'⟩
    | raised e => exact ⟨[p], real, processes, hstarted, fun _ hp => (fails (by simp) hp).elim⟩
    | unfinished => exact ⟨[p], real, processes, hstarted, fun _ hp => (fails (by simp) hp).elim⟩

end CommandLineTool

/-! ## Lines of commands -/

namespace ToolKit

variable {kit : ToolKit}

/-- The words with which a tool is started for some arguments. -/
theorem texts_argv {tool : DeviceTool} {dryRun : Bool} {args : List Value} {line : List String}
    (h : Command.texts ((kit.tool tool dryRun).argv args) = .ok line) :
    ∃ words, Command.texts args = .ok words ∧ line = kit.line tool words := by
  unfold ToolKit.tool CommandLineTool.argv at h
  unfold ToolKit.line
  obtain ⟨words, hwords, rfl⟩ := Command.texts_str h
  dsimp only at hwords ⊢
  by_cases hserial : tool = .heimdall || (kit.serial tool).isEmpty
  · rw [if_pos hserial] at hwords ⊢
    exact ⟨words, hwords, rfl⟩
  · rw [if_neg hserial] at hwords ⊢
    obtain ⟨tail, htail, rfl⟩ := Command.texts_str hwords
    obtain ⟨args', hargs, rfl⟩ := Command.texts_str htail
    exact ⟨args', hargs, rfl⟩

/-- What begins neither with the word of an access poll nor with the option for the serial number is
no access poll of any tool. -/
theorem line_not_poll (kit : ToolKit) (tool : DeviceTool) {verb : String} (words : List String)
    (hverb : verb ∉ ["-s", "get-state", "devices", "detect"]) :
    kit.line tool (verb :: words) ∉ kit.polls := by
  simp only [List.mem_cons, List.not_mem_nil, or_false, not_or] at hverb
  intro h
  unfold polls at h
  obtain ⟨tool', -, heq⟩ := List.mem_map.mp h
  unfold line at heq
  by_cases hserial : (tool = .heimdall || (kit.serial tool).isEmpty) = true <;>
    by_cases hserial' : (tool' = .heimdall || (kit.serial tool').isEmpty) = true <;>
    cases tool' <;> simp_all [pollWord]

end ToolKit

namespace CommandLineTool

/-- The words of a command that is no access poll of any tool, whatever the serial number. -/
def Works (args : List Value) : Prop :=
  ∃ verb words, args = .str verb :: words ∧ verb ∉ ["-s", "get-state", "devices", "detect"]

theorem executed_works {kit : ToolKit} {tool : DeviceTool} {dryRun : Bool} {args : List Value}
    (hargs : Works args) {p : Process}
    (hp : Command.texts ((kit.tool tool dryRun).argv args) = .ok p.argv) :
    kit.executed [p] = [p.argv] := by
  obtain ⟨verb, words, rfl, hverb⟩ := hargs
  obtain ⟨line, hline, hargv⟩ := ToolKit.texts_argv hp
  obtain ⟨words', -, rfl⟩ := Command.texts_str hline
  have hnot := kit.line_not_poll tool words' hverb
  rw [← hargv] at hnot
  simp [ToolKit.executed, hnot]

/-! ## Commands -/

variable {kit : ToolKit} {launch : Launch τ}

/-- In a dry run a command succeeds once it is recorded. -/
theorem exec_dry (t : CommandLineTool) (args : List Value) (n : Nat) (w : σ) :
    t.exec Command.dry args n w =
      match Command.words (t.argv args) with
      | .ok line => ⟨.returned (), [.commanded line], w⟩
      | .error e => ⟨.raised e, [], w⟩ := by
  unfold exec poll Command.dry
  cases hwords : Command.words (t.argv args) with
  | ok line => rfl
  | error e =>
    cases Command.words_error hwords
    rfl

/-- A command that must succeed is rehearsed by recording it. -/
theorem exec_rehearses (tool : DeviceTool) (dryRun : Bool) {args : List Value}
    (hargs : Works args) :
    Rehearses kit some ((kit.tool tool true).exec Command.dry args : Job σ Unit)
      ((kit.tool tool dryRun).exec (Bench.runner launch) args : Job (Bench σ τ) Unit) := by
  have hargv : (kit.tool tool true).argv args = (kit.tool tool dryRun).argv args := rfl
  constructor
  · intro n w hw
    have hrunner : (kit.tool tool dryRun).exec (Bench.runner launch) args n w =
        (kit.tool tool dryRun).exec Command.dry args n w := by
      unfold exec poll
      simp only [bind_apply, Run.rescue, Bench.runner, hw, if_true]
    unfold Run.aside
    rw [hrunner, exec_dry, exec_dry, hargv]
    cases Command.words ((kit.tool tool dryRun).argv args) <;> rfl
  · intro n w hw
    have hpoll := poll_attempted launch (kit.tool tool dryRun) args n hw
    refine carries_of_attempted hw hpoll ?_ ?_ ?_ ?_
    · intro result n w
      by_cases hcode : result.code = 0
      · rw [if_pos hcode]
        exact ⟨_, rfl⟩
      · rw [if_neg hcode]
        cases Command.texts args <;> exact ⟨_, rfl⟩
    · rw [exec_dry]
      split <;> rfl
    · intro hwords
      rw [exec_dry, hargv, hwords]
      exact ⟨rfl, rfl⟩
    · rintro p result htexts hresult ⟨result', hresult', hcode, -⟩
      cases hresult.symm.trans hresult'
      have hwords := Command.words_of_texts htexts
      rw [exec_dry, hargv, hwords, executed_works hargs htexts, if_pos hcode]
      exact ⟨fun _ _ => rfl, rfl, rfl⟩

/-- A dry run takes for granted that a device can be reached. -/
theorem hasAccess_rehearses (tool : DeviceTool) :
    Rehearses kit some (Pure.pure true : Job σ Bool)
      (fun n w => (kit.tool tool w.dryRun).hasAccess (Bench.runner launch) n w :
        Job (Bench σ τ) Bool) := by
  constructor
  · intro n w hw
    show (kit.tool tool w.dryRun).hasAccess (Bench.runner launch) n w = _
    rw [hw]
    rfl
  · intro n w hw
    have htexts : Command.texts ((kit.tool tool false).argv (pollArgs tool)) =
        .ok (kit.line tool [ToolKit.pollWord tool]) := by
      unfold ToolKit.tool argv ToolKit.line
      dsimp only
      split <;> cases tool <;> rfl
    have hpoll := poll_attempted launch (kit.tool tool false) (pollArgs tool) n hw
    show ∃ ps, Carries kit some w ps _
      ((kit.tool tool w.dryRun).hasAccess (Bench.runner launch) n w)
    rw [hw]
    refine carries_of_attempted hw hpoll (fun _ _ _ => ⟨_, rfl⟩) rfl ?_ ?_
    · intro hwords
      cases hwords.symm.trans (Command.words_of_texts htexts)
    · rintro p result hp hresult ⟨result', hresult', -, hreachable⟩
      cases hresult.symm.trans hresult'
      have hargv : p.argv = kit.line tool [ToolKit.pollWord tool] :=
        Except.ok.inj (hp.symm.trans htexts)
      refine ⟨fun n w => ?_, rfl, ?_⟩
      · show (⟨.returned (reachable tool result), [], w⟩ : Trail Signal (Bench σ τ) Bool) =
          ⟨.returned true, [], w⟩
        rw [hreachable tool hargv]
      · -- The poll is left out of what was executed, as it is not on the record of the rehearsal.
        have hmem : p.argv ∈ kit.polls := by
          rw [hargv]
          exact List.mem_map.mpr ⟨tool, by cases tool <;> simp, rfl⟩
        have hnone : kit.executed [p] = [] := by simp [ToolKit.executed, hmem]
        exact hnone.symm

/-! ## Requests -/

theorem flashArgs_works {image : Value} {args : List Value} (h : flashArgs image = .ok args) :
    Works args := by
  unfold flashArgs at h
  obtain ⟨raw, -, h⟩ := Fallible.bind_eq_ok h
  obtain ⟨_, -, h⟩ := Fallible.bind_eq_ok h
  obtain ⟨partition, -, h⟩ := Fallible.bind_eq_ok h
  obtain ⟨_, -, h⟩ := Fallible.bind_eq_ok h
  obtain ⟨file, -, h⟩ := Fallible.bind_eq_ok h
  cases h
  refine ⟨_, _, rfl, ?_⟩
  split <;> decide

/-- The format command begins with its name, whatever is appended to it. -/
theorem formatCommand_eq {fsType size : Value} {command : String}
    (h : formatCommand fsType size = .ok command) : ∃ rest, command = "format" ++ rest := by
  unfold formatCommand at h
  split at h
  · obtain ⟨text, -, h⟩ := Fallible.bind_eq_ok h
    split at h
    · obtain ⟨sizeText, -, h⟩ := Fallible.bind_eq_ok h
      cases h
      exact ⟨":" ++ text ++ ":" ++ sizeText, by
        rw [show "format:" = "format" ++ ":" from rfl]
        simp only [String.append_assoc]⟩
    · cases h
      exact ⟨":" ++ text, by simp [← String.append_assoc]⟩
  · cases h
    exact ⟨"", by simp⟩

/-- What begins like the format command of the bootloader, or like a long option, is no word of an
access poll. -/
theorem append_not_poll {head : String} (hhead : head = "format" ∨ head = "--set-active=")
    (rest : String) : head ++ rest ∉ ["-s", "get-state", "devices", "detect"] := by
  intro h
  simp only [List.mem_cons, List.not_mem_nil, or_false, ← String.toList_inj,
    String.toList_append] at h
  rcases hhead with rfl | rfl <;> simp at h

/-- No command of a request is an access poll. -/
theorem commands_works {call : DeviceCall} (hcall : ∀ images, call ≠ .flash images)
    {commands' : List (List Value)} (h : commands call = .ok commands') {args : List Value}
    (hargs : args ∈ commands') : Works args := by
  cases call with
  | flash images => exact absurd rfl (hcall images)
  | heimdallFlash images =>
    simp only [commands] at h
    cases hwords : imageArgs images with
    | error e =>
      rw [hwords] at h
      cases h
    | ok words =>
      rw [hwords] at h
      cases h
      cases List.mem_singleton.mp hargs
      exact ⟨_, _, rfl, by decide⟩
  | adbReboot state =>
    cases h
    cases List.mem_singleton.mp hargs
    split <;> exact ⟨_, _, rfl, by decide⟩
  | sideload file =>
    obtain ⟨text, -, h⟩ := Fallible.bind_eq_ok h
    cases h
    cases List.mem_singleton.mp hargs
    exact ⟨_, _, rfl, by decide⟩
  | boot image partition =>
    obtain ⟨text, -, h⟩ := Fallible.bind_eq_ok h
    cases h
    split at hargs
    · simp only [List.mem_cons, List.not_mem_nil, or_false] at hargs
      rcases hargs with rfl | rfl <;> exact ⟨_, _, rfl, by decide⟩
    · cases List.mem_singleton.mp hargs
      exact ⟨_, _, rfl, by decide⟩
  | update image wipe =>
    obtain ⟨text, -, h⟩ := Fallible.bind_eq_ok h
    cases h
    cases List.mem_singleton.mp hargs
    cases wipe <;> exact ⟨_, _, rfl, by decide⟩
  | oemUnlock code =>
    simp only [commands] at h
    split at h
    · obtain ⟨text, -, h⟩ := Fallible.bind_eq_ok h
      cases h
      cases List.mem_singleton.mp hargs
      exact ⟨_, _, rfl, by decide⟩
    · cases h
      cases List.mem_singleton.mp hargs
      exact ⟨_, _, rfl, by decide⟩
  | fastbootFormat partition fsType size =>
    obtain ⟨command, hcommand, h⟩ := Fallible.bind_eq_ok h
    cases h
    cases List.mem_singleton.mp hargs
    obtain ⟨rest, rfl⟩ := formatCommand_eq hcommand
    exact ⟨_, _, rfl, append_not_poll (.inl rfl) _⟩
  | setActive slot =>
    obtain ⟨text, -, h⟩ := Fallible.bind_eq_ok h
    cases h
    cases List.mem_singleton.mp hargs
    exact ⟨_, _, rfl, append_not_poll (.inr rfl) _⟩
  | _ =>
    cases h
    cases List.mem_singleton.mp hargs
    exact ⟨_, _, rfl, by decide⟩

theorem perform_sideload (t : CommandLineTool) (runner : Runner σ) (file : Value)
    (report : Value → Job σ Unit) :
    t.perform runner (.sideload file) report = (do
      report (.int 0)
      Run.each (t.exec runner) (← commands (.sideload file))
      report (.int 1)) := rfl

variable {coreReport : Value → Job σ Unit} {report : Value → Job (Bench σ τ) Unit}
  (hreport : ∀ part, Rehearses kit some (coreReport part) (report part))
include hreport

theorem flashFrom_rehearses (tool : DeviceTool) (dryRun : Bool) (total i : Nat)
    (images : List Value) :
    Rehearses kit some
      ((kit.tool tool true).flashFrom Command.dry coreReport total i images)
      ((kit.tool tool dryRun).flashFrom (Bench.runner launch) report total i images) := by
  -- The images that are left are flashed with the same total, so only the index moves on.
  induction images generalizing i with
  | nil => exact hreport _
  | cons image images ih =>
    refine (hreport _).bind fun _ => ?_
    cases hargs : flashArgs image with
    | error e => exact .raise e
    | ok args => exact (exec_rehearses tool dryRun (flashArgs_works hargs)).bind fun _ => ih (i + 1)

/-- A request to a device is rehearsed by recording its commands. -/
theorem perform_rehearses (call : DeviceCall) (dryRun : Bool) :
    Rehearses kit some ((kit.tool call.tool true).perform Command.dry call coreReport)
      ((kit.tool call.tool dryRun).perform (Bench.runner launch) call report) := by
  have hlines {lines : List (List Value)} (h : ∀ images, call ≠ .flash images)
      (hlines : commands call = .ok lines) :
      Rehearses kit some
        (Run.each ((kit.tool call.tool true).exec Command.dry) lines : Job σ Unit)
        (Run.each ((kit.tool call.tool dryRun).exec (Bench.runner launch)) lines :
          Job (Bench σ τ) Unit) :=
    .each fun args hargs => exec_rehearses _ _ (commands_works h hlines hargs)
  have hcommands (h : ∀ images, call ≠ .flash images) :
      Rehearses kit some
        (do Run.each ((kit.tool call.tool true).exec Command.dry) (← commands call) : Job σ Unit)
        (do Run.each ((kit.tool call.tool dryRun).exec (Bench.runner launch)) (← commands call) :
          Job (Bench σ τ) Unit) := by
    cases hread : commands call with
    | error e => exact .raise e
    | ok lines => exact hlines h hread
  cases call with
  | flash images => exact flashFrom_rehearses hreport _ _ _ _ _
  | sideload file =>
    rw [perform_sideload, perform_sideload]
    refine (hreport _).bind fun _ => ?_
    cases hread : commands (.sideload file) with
    | error e => exact .raise e
    | ok lines => exact (hlines (by simp) hread).bind fun _ => hreport _
  | _ => exact hcommands (by simp)

end CommandLineTool

end Reflash
