import Reflash.Proofs.Budget

set_option autoImplicit false

/-! # Runs that differ by one event

Of the events of a run often only some are looked at, and choosing them goes along with putting runs
together (`Run.filterEvents_bind`, `Run.filterEvents_rescue`). Two runs that are the same but for one
event that may have been put in (`Run.Inserts`) stay so when the same is done before them or after
them. -/

namespace Reflash

open Run

variable {ε ε' σ α β : Type}

/-! ## Choosing events -/

namespace Run

theorem filterEvents_apply (f : ε → Option ε') (r : Run ε σ α) (n : Nat) (w : σ) :
    r.filterEvents f n w = ⟨(r n w).ending, (r n w).events.filterMap f, (r n w).world⟩ := rfl

variable (f : ε → Option ε')

theorem filterEvents_bind (r : Run ε σ α) (next : α → Run ε σ β) :
    (r >>= next).filterEvents f = r.filterEvents f >>= fun a => (next a).filterEvents f := by
  funext n w
  rw [filterEvents_apply, bind_apply, bind_apply, filterEvents_apply]
  rcases r n w with ⟨_ | _ | _, es, w'⟩
  · dsimp only
    rw [List.filterMap_append]
    rfl
  all_goals rfl

theorem filterEvents_rescue (r : Run ε σ α) (handler : Fault → Run ε σ α) :
    (r.rescue handler).filterEvents f =
      (r.filterEvents f).rescue fun e => (handler e).filterEvents f := by
  funext n w
  rw [filterEvents_apply]
  unfold Run.rescue
  rw [filterEvents_apply]
  rcases r n w with ⟨_ | _ | _, es, w'⟩
  · rfl
  · dsimp only
    rw [List.filterMap_append]
    rfl
  · rfl

theorem filterEvents_mapEvents {ε'' : Type} (g : ε'' → ε) (r : Run ε'' σ α) :
    (r.mapEvents g).filterEvents f = r.filterEvents fun e => f (g e) := by
  funext n w
  rw [filterEvents_apply, filterEvents_apply]
  exact congrArg (Trail.mk _ · _) (List.filterMap_map ..)

theorem filterEvents_emit_some {e : ε} {e' : ε'} (h : f e = some e') :
    (Run.emit e : Run ε σ Unit).filterEvents f = Run.emit e' := by
  funext n w
  exact congrArg (Trail.mk _ · _) (List.filterMap_cons_some h)

theorem filterEvents_emit_none {e : ε} (h : f e = none) :
    (Run.emit e : Run ε σ Unit).filterEvents f = Pure.pure () := by
  funext n w
  exact congrArg (Trail.mk _ · _) (List.filterMap_cons_none h)

theorem mapEvents_bind (g : ε → ε') (r : Run ε σ α) (next : α → Run ε σ β) :
    (r >>= next).mapEvents g = r.mapEvents g >>= fun a => (next a).mapEvents g := by
  funext n w
  rw [bind_apply]
  unfold mapEvents
  rw [bind_apply]
  rcases r n w with ⟨_ | _ | _, es, w'⟩
  · dsimp only
    rw [List.map_append]
  all_goals rfl

theorem Grows.filterEvents {n m : Nat} {r r' : Run ε σ α} (hr : r.Grows n m r') :
    (r.filterEvents f).Grows n m (r'.filterEvents f) := by
  intro w
  rcases hr w with h | ⟨hu, hes⟩
  · left
    rw [filterEvents_apply, filterEvents_apply, h]
  · exact .inr ⟨hu, hes.filterMap f⟩

end Run

/-! ## Putting an event in -/

/-- The second trail is the first one, with the event put in somewhere or not at all. -/
structure Trail.Inserts (e : ε) (t t' : Trail ε σ α) : Prop where
  ending : t'.ending = t.ending
  world : t'.world = t.world
  events : t'.events = t.events ∨
    ∃ before after, t.events = before ++ after ∧ t'.events = before ++ e :: after

namespace Trail.Inserts

variable {e : ε}

theorem refl (t : Trail ε σ α) : t.Inserts e t := ⟨rfl, rfl, .inl rfl⟩

theorem prepend {t t' : Trail ε σ α} (es : List ε) (h : t.Inserts e t') :
    (⟨t.ending, es ++ t.events, t.world⟩ : Trail ε σ α).Inserts e
      ⟨t'.ending, es ++ t'.events, t'.world⟩ := by
  refine ⟨h.ending, h.world, ?_⟩
  rcases h.events with heq | ⟨before, after, hevents, hevents'⟩
  · exact .inl (congrArg (es ++ ·) heq)
  · refine .inr ⟨es ++ before, after, ?_, ?_⟩
    · rw [List.append_assoc, ← hevents]
    · rw [List.append_assoc, ← hevents']

theorem append {o : Ending α} {o' : Ending β} {es es' : List ε} {w w' : σ}
    (h : (⟨o, es, w⟩ : Trail ε σ α).Inserts e ⟨o, es', w⟩) (more : List ε) :
    (⟨o', es ++ more, w'⟩ : Trail ε σ β).Inserts e ⟨o', es' ++ more, w'⟩ := by
  refine ⟨rfl, rfl, ?_⟩
  rcases h.events with heq | ⟨before, after, hevents, hevents'⟩
  · exact .inl (congrArg (· ++ more) heq)
  · dsimp only at hevents hevents'
    exact .inr ⟨before, after ++ more, by rw [hevents, List.append_assoc],
      by rw [hevents', List.append_assoc, List.cons_append]⟩

end Trail.Inserts

namespace Run

/-- With a budget the second run is the first one, with the event put in somewhere or not at all. -/
def Inserts (e : ε) (n : Nat) (r r' : Run ε σ α) : Prop :=
  ∀ w, (r n w).Inserts e (r' n w)

namespace Inserts

variable {e : ε} {n : Nat}

theorem emit_bind (r : Run ε σ α) : Inserts e n r (Run.emit e >>= fun _ => r) :=
  fun w => ⟨rfl, rfl, .inr ⟨[], (r n w).events, rfl, rfl⟩⟩

theorem after (r : Run ε σ α) {next next' : α → Run ε σ β}
    (h : ∀ a, Inserts e n (next a) (next' a)) : Inserts e n (r >>= next) (r >>= next') := by
  intro w
  rw [bind_apply, bind_apply]
  rcases r n w with ⟨a | _ | _, es, w'⟩
  · exact (h a w').prepend es
  all_goals exact .refl _

theorem before {r r' : Run ε σ α} (h : Inserts e n r r') (next : α → Run ε σ β) :
    Inserts e n (r >>= next) (r' >>= next) := by
  intro w
  have hrun := h w
  rw [bind_apply, bind_apply]
  rcases hr : r n w with ⟨o, es, w₁⟩
  rcases hr' : r' n w with ⟨o', es', w₁'⟩
  rw [hr, hr'] at hrun
  obtain rfl : o' = o := hrun.ending
  obtain rfl : w₁' = w₁ := hrun.world
  cases o' with
  | returned a => exact hrun.append _
  | _ =>
    dsimp only
    exact ⟨rfl, rfl, hrun.events⟩

theorem rescue {r r' : Run ε σ α} (h : Inserts e n r r') (handler : Fault → Run ε σ α) :
    Inserts e n (r.rescue handler) (r'.rescue handler) := by
  intro w
  have hrun := h w
  unfold Run.rescue
  rcases hr : r n w with ⟨o, es, w₁⟩
  rcases hr' : r' n w with ⟨o', es', w₁'⟩
  rw [hr, hr'] at hrun
  obtain rfl : o' = o := hrun.ending
  obtain rfl : w₁' = w₁ := hrun.world
  cases o' with
  | raised e' => exact hrun.append _
  | _ => exact hrun

end Inserts

end Run

end Reflash
