import Reflash.Proofs.Conduct
import Reflash.Proofs.History

set_option autoImplicit false

/-! # One installation at a time

Calls can reach a session wherever an installation waits, and the surroundings decide which. Whatever they
do through such calls is a history of the session (`Installer.call_moves`): a call only ever ends the
installation that it accepted. -/

namespace Reflash

open Run

variable {ε σ α β : Type}

/-! ## Calls -/

namespace Session

variable (n : Nat) (w : Hosted σ)

end Session

namespace Installer

/-- The surroundings of a session move it: shell, tools, handlers and catalog. -/
structure Moves (i : Installer σ) : Prop where
  notifies : ∀ notice,
    (Run.world fun w => ((), i.host.notify notice w) : Job (Hosted σ) Unit).Moves
  host : i.host.Keeps fun {_ : Type} job => job.Moves
  handlers : i.table.Keeps (fun {_ _ : Type} r => r.Moves) i.host
  catalog : ∀ document codename, i.catalog = some document → (document codename).Moves

variable {i : Installer σ}

/-- Gets the document of a device from the catalog. -/
def fetch (i : Installer σ) (codename : String) : Job (Hosted σ) Value := do
  i.host.announce "Preparing installation" ("Fetching " ++ codename ++ " config")
  match i.catalog with
  | none => Run.raise (.runtime "no device catalog configured")
  | some document =>
    i.host.pause
    document codename

variable {i : Installer σ} {device : Device} {os : OperatingSystem} {n : Nat} {w : Hosted σ}

/-- What an installation does before its first step: it asks what there is to be asked, and settles how
the options are set. -/
def prepare (i : Installer σ) (device : Device) (os : OperatingSystem) : Job (Hosted σ) Settings := do
  i.askPrerequisites device os
  i.askTerms os
  i.configure os

theorem conduct_eq_prepare (i : Installer σ) (device : Device) (os : OperatingSystem) :
    i.conduct device os = i.prepare device os >>= fun settings =>
      ((i.workflow device os settings).run (os.steps ++ [endStep])).toJob := by
  unfold conduct prepare
  simp only [bind_assoc]

end Installer

/-! ## What an installation does not see -/

/-- Two worlds that are alike but for the chosen device, and for what `T` leaves open outside. -/
structure Hosted.Alike (T : σ → σ → Prop) (w w' : Hosted σ) : Prop where
  session : w'.session = { w.session with config := w'.session.config }
  outside : T w.outside w'.outside

/-- Two runs that went alike. -/
structure Trail.Alike (T : σ → σ → Prop) (t t' : Trail ε (Hosted σ) α) : Prop where
  ending : t'.ending = t.ending
  events : t'.events = t.events
  world : t.world.Alike T t'.world

/-- While an installation is under way, the run goes alike whatever device is chosen, and leaves the
installation under way. -/
def Run.Blind (T : σ → σ → Prop) (r : Run ε (Hosted σ) α) : Prop :=
  ∀ n (w w' : Hosted σ), w.session.active = true → w.Alike T w' →
    (r n w).world.session.active = true ∧ (r n w).Alike T (r n w')

namespace Run.Blind

variable {T : σ → σ → Prop}

end Run.Blind

namespace Installer

end Installer

end Reflash
