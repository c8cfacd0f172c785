import Reflash.Proofs.Stable

set_option autoImplicit false

/-! # How a session can change

There are six ways in which the state of a session changes (`Session.Change`), each of them only when it
is allowed: a device is chosen only once its document was read, an option is set only while no
installation is under way, and an installation is accepted only then. A history is a list of such changes
(`Session.History`). In it installations are accepted and end in turns, and the state says which of the
two came last (`Session.History.alternates`).

A run moves its session (`Run.Moves`) if what it does to the state is a history, in which no
installation ends that was under way before: that is left to the run of the installation. One that it
accepts it sees to the end. -/

namespace Reflash

open Run

variable {ε σ α β : Type}

namespace Session

/-! ## Changes -/

/-- What can happen to the state of a session. -/
inductive Change where
  /-- A device was chosen, by the document that describes it. -/
  | configured (document : Value) (device : Device)
  | optionSet (var value : Value)
  /-- An installation was accepted. -/
  | accepted
  /-- Its cancellation was asked for. -/
  | cancelled
  /-- A cancellation arrived. -/
  | arrived
  /-- The installation ended. -/
  | ended

/-- The document is well-formed and describes the device. -/
def Describes (document : Value) (device : Device) : Prop :=
  ∃ es, document.asMapping = .ok es ∧ Device.ofEntries es = .ok device

namespace Change

/-- When a change can happen. -/
def Allowed (s : Session) : Change → Prop
  | configured document device => Describes document device
  | optionSet var _ => s.active = false ∧ var.isKey
  | accepted => s.active = false
  | cancelled | ended => s.active = true
  | arrived => s.pending = true

/-- The state after a change. -/
def apply (s : Session) : Change → Session
  | configured _ device => { s with config := some device }
  | optionSet var value => { s with options := s.options.put var value }
  | accepted => { s with active := true, cancelRequested := false }
  | cancelled => { s with cancelRequested := true, pending := true }
  | arrived => { s with pending := false }
  | ended => { s with active := false }

end Change

/-! ## Histories -/

/-- The second state comes from the first one by these changes. -/
inductive History : Session → List Change → Session → Prop
  | nil (s : Session) : History s [] s
  | cons {s s' : Session} {c : Change} {cs : List Change} (h : c.Allowed s)
    (hs : History (c.apply s) cs s') : History s (c :: cs) s'

namespace History

variable {s s' s'' : Session} {cs cs' : List Change}

theorem single {c : Change} (h : c.Allowed s) : History s [c] (c.apply s) :=
  .cons h (.nil _)

theorem append (h : History s cs s') (h' : History s' cs' s'') : History s (cs ++ cs') s'' := by
  induction h with
  | nil => exact h'
  | cons hc _ ih => exact .cons hc (ih h')

/-- While an installation is under way, none is accepted, and no option is set. -/
theorem underway (h : History s cs s') (hactive : s.active = true) (hended : .ended ∉ cs) :
    s'.active = true ∧ s'.options = s.options ∧ .accepted ∉ cs := by
  induction h with
  | nil => exact ⟨hactive, rfl, List.not_mem_nil⟩
  | @cons s s' c cs hc _ ih =>
    rw [List.mem_cons, not_or] at hended
    have hstep : (c.apply s).active = true ∧ (c.apply s).options = s.options ∧ c ≠ .accepted := by
      cases c with
      | optionSet => exact absurd hactive (by simp [hc.1])
      | accepted => exact absurd hactive (by simp [show s.active = false from hc])
      | ended => exact absurd rfl hended.1
      | _ => exact ⟨hactive, rfl, by simp⟩
    obtain ⟨hactive', hoptions, haccepted⟩ := ih hstep.1 hended.2
    exact ⟨hactive', hoptions.trans hstep.2.1,
      List.not_mem_cons_of_ne_of_not_mem (Ne.symm hstep.2.2) haccepted⟩

end History

/-- The second state comes from the first one by a history, in which no installation ends that was under
way before. -/
def Leads (s s' : Session) : Prop :=
  ∃ cs, History s cs s' ∧ (s.active = true → .ended ∉ cs)

theorem Leads.refl (s : Session) : s.Leads s :=
  ⟨[], .nil s, fun _ => List.not_mem_nil⟩

theorem Leads.trans {s s' s'' : Session} (h : s.Leads s') (h' : s'.Leads s'') : s.Leads s'' := by
  obtain ⟨cs, hs, hended⟩ := h
  obtain ⟨cs', hs', hended'⟩ := h'
  refine ⟨cs ++ cs', hs.append hs', fun hactive => ?_⟩
  rw [List.mem_append, not_or]
  exact ⟨hended hactive, hended' (hs.underway hactive (hended hactive)).1⟩

theorem Leads.single {s : Session} {c : Change} (h : c.Allowed s) (hc : c ≠ .ended) :
    s.Leads (c.apply s) :=
  ⟨[c], .single h, fun _ => by simpa using Ne.symm hc⟩

/-- An installation that is under way stays so, with the options that were set before. -/
theorem Leads.underway {s s' : Session} (h : s.Leads s') (hactive : s.active = true) :
    s'.active = true ∧ s'.options = s.options := by
  obtain ⟨cs, hs, hended⟩ := h
  obtain ⟨hactive', hoptions, -⟩ := hs.underway hactive (hended hactive)
  exact ⟨hactive', hoptions⟩

end Session

/-! ## Runs that move their session -/

/-- What the run does to the state of its session is a history. No installation ends in it that was under
way before, and one that was accepted in it has ended when the run does. -/
structure Run.Moves (r : Run ε (Hosted σ) α) : Prop where
  leads : ∀ n (w : Hosted σ), w.session.Leads (r n w).world.session
  ends : ∀ n (w : Hosted σ), w.session.active = false → (r n w).ending ≠ .unfinished →
    (r n w).world.session.active = false

namespace Run.Moves

theorem thereafter {r : Run ε (Hosted σ) α} {next : Ending α → Run ε (Hosted σ) β} (hr : r.Moves)
    (hnext : ∀ o, (next o).Moves) (hunfinished : next .unfinished = Run.unfinished) :
    (r.thereafter next).Moves where
  leads n w := (hr.leads n w).trans ((hnext _).leads n _)
  ends n w hidle hends := by
    refine (hnext _).ends n _ (hr.ends n w hidle fun hr' => ?_) hends
    change (next (r n w).ending n (r n w).world).ending ≠ .unfinished at hends
    rw [hr', hunfinished] at hends
    exact hends rfl

end Run.Moves

end Reflash
