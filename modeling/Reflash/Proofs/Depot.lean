import Mathlib
import Reflash.Builtin.Table
import Reflash.Download
import Reflash.Proofs.Configure

set_option autoImplicit false

/-! # Runs with files

What a run does to its world is said by triples (`Run.Leads`), with one rule for each way of putting
runs together. The world is a depot: files, beside a rest of which nothing is known, and a ledger of
what was asked for at addresses, what was announced as done, and what the user was asked. A job of
the rest is a job of the depot that leaves the files alone (`Depot.aside`), so the servers, the
shell and whoever is told about progress are arbitrary jobs of the rest. -/

namespace Reflash

variable {ε σ α β : Type}

/-! ## Endings -/

/-- Whether the run returned. -/
def Ending.isReturned : Ending α → Bool
  | .returned _ => true
  | _ => false

theorem Ending.eq_returned {o : Ending Unit} (h : o.isReturned = true) : o = .returned () := by
  cases o with
  | returned _ => rfl
  | raised _ | unfinished => cases h

/-- Whether a run ended since the system refused, with this message. -/
def Ending.isRefused (message : String) : Ending α → Bool
  | .raised (.system m) => m == message
  | _ => false

theorem Ending.eq_refused {o : Ending α} {message : String} (h : o.isRefused message = true) :
    o = .raised (.system message) := by
  unfold isRefused at h
  split at h
  · rw [beq_iff_eq.mp h]
  · cases h

/-- What a run returned, if it did. -/
def Ending.value? : Ending α → Option α
  | .returned a => some a
  | _ => none

/-! ## Triples -/

namespace Run

/-- From a world of which `P` holds the run ends as `Q` says, with any budget. -/
def Leads (P : σ → Prop) (r : Run ε σ α) (Q : Ending α → σ → Prop) : Prop :=
  ∀ n w, P w → Q (r n w).ending (r n w).world

/-- The run returns, whatever the world. -/
def Returns (r : Run ε σ α) : Prop :=
  ∀ n w, ∃ a events w', r n w = ⟨.returned a, events, w'⟩

namespace Leads

variable {P : σ → Prop} {Q : Ending α → σ → Prop}

theorem mono {Q' : Ending α → σ → Prop} {r : Run ε σ α} (hr : Leads P r Q)
    (h : ∀ o w, Q o w → Q' o w) : Leads P r Q' :=
  fun n w hw => h _ _ (hr n w hw)

theorem weaken {P' : σ → Prop} {r : Run ε σ α} (hr : Leads P r Q) (h : ∀ w, P' w → P w) :
    Leads P' r Q :=
  fun n w hw => hr n w (h w hw)

theorem pure {a : α} (h : ∀ w, P w → Q (.returned a) w) :
    Leads P (Pure.pure a : Run ε σ α) Q :=
  fun _ w hw => h w hw

theorem raise {e : Fault} (h : ∀ w, P w → Q (.raised e) w) :
    Leads P (Run.raise e : Run ε σ α) Q :=
  fun _ w hw => h w hw

/-- Where the first run does not return, it has to give what the whole promises. -/
theorem bind {R : Ending β → σ → Prop} {r : Run ε σ β} {next : β → Run ε σ α} (hr : Leads P r R)
    (returned : ∀ b, Leads (R (.returned b)) (next b) Q)
    (raised : ∀ e w, R (.raised e) w → Q (.raised e) w)
    (unfinished : ∀ w, R .unfinished w → Q .unfinished w) : Leads P (r >>= next) Q := by
  intro n w hw
  have h := hr n w hw
  rw [bind_apply]
  rcases hrun : r n w with ⟨b | e | _, events, w'⟩
  all_goals rw [hrun] at h
  · exact returned b n w' h
  · exact raised e w' h
  · exact unfinished w' h

/-- A run whose failure is handled. -/
theorem rescue {R : Ending α → σ → Prop} {r : Run ε σ α} {handler : Fault → Run ε σ α}
    (hr : Leads P r R) (returned : ∀ a w, R (.returned a) w → Q (.returned a) w)
    (raised : ∀ e, Leads (R (.raised e)) (handler e) Q)
    (unfinished : ∀ w, R .unfinished w → Q .unfinished w) : Leads P (r.rescue handler) Q := by
  intro n w hw
  have h := hr n w hw
  unfold Run.rescue
  rcases hrun : r n w with ⟨a | e | _, events, w'⟩
  all_goals rw [hrun] at h
  · exact returned a w' h
  · exact raised e n w' h
  · exact unfinished w' h

/-- A run after one that keeps what the world is like. -/
theorem keep_bind {r : Run ε σ β} {next : β → Run ε σ α} (hr : Leads P r fun _ => P)
    (hnext : ∀ b, Leads P (next b) Q) (raised : ∀ e w, P w → Q (.raised e) w)
    (unfinished : ∀ w, P w → Q .unfinished w) : Leads P (r >>= next) Q :=
  hr.bind hnext raised unfinished

/-- A run after an event. -/
theorem emit_bind {event : ε} {next : Unit → Run ε σ α} (h : Leads P (next ()) Q) :
    Leads P (Run.emit event >>= next) Q :=
  h

/-- A run after a line that is left out if its text cannot be made. -/
theorem logText_bind {P : σ → Prop} {Q : Ending α → σ → Prop} {level : Level} {source : String}
    {text : Fallible String} {next : Unit → Job σ α} (h : Leads P (next ()) Q) :
    Leads P (Host.logText level source text >>= next) Q := by
  cases text with
  | ok line => exact h
  | error e => exact h

/-- A run after something was read off the world. -/
theorem read_bind {f : σ → β} {next : β → Run ε σ α} (h : ∀ b, Leads P (next b) Q) :
    Leads P (Run.world (fun w => (f w, w)) >>= next) Q :=
  fun n w hw => h (f w) n w hw

/-- A run after a computation. -/
theorem ofFallible_bind {x : Fallible β} {next : β → Run ε σ α}
    (ok : ∀ b, x = .ok b → Leads P (next b) Q)
    (error : ∀ e w, x = .error e → P w → Q (.raised e) w) :
    Leads P ((liftM x : Run ε σ β) >>= next) Q := by
  cases x with
  | ok b => exact ok b rfl
  | error e => exact fun _ w hw => error e w rfl hw

end Leads

end Run

/-! ## Depots -/

/-- Files and the rest of a world, with a ledger: the addresses that were asked for, the numbers of
files that were announced as done, and the questions to the user with what came of them. -/
structure Depot (σ : Type) where
  rest : σ
  files : FileStore
  requested : List Value := []
  announced : List (Value × Value) := []
  asked : List (PromptRequest × Ending Decision) := []

/-- The servers in the rest of the world, and how fast what they send comes. -/
structure Net (σ : Type) where
  get : Value → Job σ Response
  rate : Nat → σ → Value

/-- Servers that send nothing. -/
def Net.silent : Net σ where
  get _ := return {}
  rate _ _ := .int 0

namespace Depot

/-- A run that only the rest of the world is concerned with. -/
def aside (r : Run ε σ α) : Run ε (Depot σ) α := fun n w =>
  let t := r n w.rest
  ⟨t.ending, t.events, { w with rest := t.world }⟩

theorem aside_returned {r : Run ε σ α} {n : Nat} {w : Depot σ} {a : α} {events : List ε} {rest : σ}
    (h : r n w.rest = ⟨.returned a, events, rest⟩) :
    aside r n w = ⟨.returned a, events, { w with rest }⟩ := by
  unfold aside
  rw [h]

/-- The files of a depot. -/
def disk : Disk (Depot σ) where
  files := Depot.files
  put files w := { w with files }

/-- What downloads work with: the files of the depot, and servers in the rest of the world. -/
def means (net : Net σ) : Download.Means (Depot σ) where
  disk
  get url := do
    Run.world fun w => ((), { w with requested := w.requested ++ [url] })
    aside (net.get url)
  rate size w := net.rate size w.rest

/-- Those in the rest of the world who are told about a download. -/
def reports (r : DownloadReports σ) : DownloadReports (Depot σ) where
  progress fraction speed := aside (r.progress fraction speed)
  next current total := do
    Run.world fun w => ((), { w with announced := w.announced ++ [(current, total)] })
    aside (r.next current total)
  activity name := aside (r.activity name)

end Depot

/-- A host in a depot. Notices go to the rest of the world, where questions are answered as well;
the files are those of the depot, and downloads go by the servers. The other tools are any. -/
def Host.inDepot (host : Host σ) (others : Tools (Depot σ)) (net : Net σ) :
    Host (Depot σ) where
  notify notice w := { w with rest := host.notify notice w.rest }
  decide request n w :=
    let t := host.decide request n w.rest
    ⟨t.ending, t.events, { w with rest := t.world, asked := w.asked ++ [(request, t.ending)] }⟩
  pause := Depot.aside host.pause
  tools := { others with
    download := Download.run (Depot.means net)
    checkFile := Download.checkFile (Depot.means net)
    makeDirectories := Depot.disk.ensureDirectory
    copyFile := Depot.disk.copy }

/-- An installation in a depot. -/
def Context.inDepot (ctx : Context σ) (others : Tools (Depot σ)) (net : Net σ) :
    Context (Depot σ) :=
  { ctx with host := ctx.host.inDepot others net }

/-! ## Runs that leave the files alone -/

/-- Only the rest of the depot is another one after the run. -/
def Run.Quiet (r : Run ε (Depot σ) α) : Prop :=
  ∀ n w, ∃ rest, (r n w).world = { w with rest }

namespace Run.Quiet

theorem pure (a : α) : (Pure.pure a : Run ε (Depot σ) α).Quiet := fun _ w => ⟨w.rest, rfl⟩

theorem raise (e : Fault) : (Run.raise e : Run ε (Depot σ) α).Quiet := fun _ w => ⟨w.rest, rfl⟩

theorem emit (event : ε) : (Run.emit event : Run ε (Depot σ) Unit).Quiet :=
  fun _ w => ⟨w.rest, rfl⟩

theorem aside (r : Run ε σ α) : (Depot.aside r).Quiet := fun _ _ => ⟨_, rfl⟩

theorem ofFallible (x : Fallible α) : (Run.ofFallible x : Run ε (Depot σ) α).Quiet := by
  cases x with
  | ok a => exact pure a
  | error e => exact raise e

theorem bind {r : Run ε (Depot σ) α} {next : α → Run ε (Depot σ) β} (hr : r.Quiet)
    (hnext : ∀ a, (next a).Quiet) : (r >>= next).Quiet := by
  intro n w
  obtain ⟨rest, hrest⟩ := hr n w
  rw [bind_apply]
  rcases hrun : r n w with ⟨a | e | _, events, w'⟩
  all_goals
    rw [hrun] at hrest
    obtain rfl : w' = { w with rest } := hrest
  · exact hnext a n { w with rest }
  · exact ⟨rest, rfl⟩
  · exact ⟨rest, rfl⟩

/-- What does not speak about the rest of the depot is kept. -/
theorem leads {r : Run ε (Depot σ) α} (hr : r.Quiet) {P : Depot σ → Prop}
    (hP : ∀ w rest, P w → P { w with rest }) : Leads P r fun _ => P := by
  intro n w hw
  obtain ⟨rest, hrest⟩ := hr n w
  rw [hrest]
  exact hP w rest hw

end Run.Quiet

namespace Depot

open Run

variable {P : Depot σ → Prop}

theorem tell_quiet (ctx : Context σ) (others : Tools (Depot σ)) (net : Net σ)
    (notice : Notice) : ((ctx.inDepot others net).host.tell notice).Quiet :=
  Quiet.bind (Quiet.emit _) fun _ _ _ => ⟨_, rfl⟩

/-- A run after a notice. -/
theorem tell_bind {ctx : Context σ} {others : Tools (Depot σ)} {net : Net σ}
    {notice : Notice} {next : Unit → Job (Depot σ) α} {Q : Ending α → Depot σ → Prop}
    (hP : ∀ w rest, P w → P { w with rest }) (h : Leads P (next ()) Q) :
    Leads P ((ctx.inDepot others net).host.tell notice >>= next) Q :=
  fun n w hw => h n _ (hP w _ hw)

theorem log_quiet (level : Level) (source message : String) :
    (Host.log level source message : Job (Depot σ) Unit).Quiet :=
  Quiet.emit _

theorem logText_quiet (level : Level) (source : String) (message : Fallible String) :
    (Host.logText level source message : Job (Depot σ) Unit).Quiet := by
  cases message with
  | ok text => exact log_quiet level source text
  | error e => exact Quiet.pure ()

theorem change_apply (f : FileStore → Fallible FileStore) (n : Nat) (w : Depot σ) :
    (disk.change f : Job (Depot σ) Unit) n w =
      match f w.files with
      | .ok files => ⟨.returned (), [], { w with files }⟩
      | .error e => ⟨.raised e, [], w⟩ := by
  have hchange : (disk.change f : Job (Depot σ) Unit) n w =
      (Run.ofFallible (f w.files) >>= fun files =>
        Run.world fun w => ((), disk.put files w) : Job (Depot σ) Unit) n w := rfl
  rw [hchange]
  cases f w.files with
  | ok files => rfl
  | error e => rfl

/-- A change of the files happens, or is refused and the files stay. -/
theorem change_leads {f : FileStore → Fallible FileStore} {Q : Ending Unit → Depot σ → Prop}
    (returned : ∀ w files, P w → f w.files = .ok files → Q (.returned ()) { w with files })
    (raised : ∀ w e, P w → f w.files = .error e → Q (.raised e) w) :
    Leads P (disk.change f : Job (Depot σ) Unit) Q := by
  intro n w hw
  rw [change_apply]
  cases hf : f w.files with
  | ok files => exact returned w files hw hf
  | error e => exact raised w e hw hf

/-- A file is checked as it is now. -/
theorem checkFile_apply (net : Net σ) (p : Path) (checksum : Value) (n : Nat)
    (w : Depot σ) : Download.checkFile (means net) p checksum n w =
      Run.ofFallible (Checksum.verify w.files p checksum) n w := by
  have hcheck : Download.checkFile (means net) p checksum n w =
      (Run.ofFallible (Checksum.verify w.files p checksum) n w).after [] := rfl
  rw [hcheck]
  rfl

end Depot

end Reflash
