import Reflash.Proofs.Grouping
import Reflash.Proofs.Replay

set_option autoImplicit false

/-! # Runs that come to an end

Every loop of a run lets some question be answered before it goes round again, or uses up one of a
limited number of attempts. So a run in which few questions are answered so that it can go on comes
to its end: with enough budget it is finished, unless more than `k` of its events count
(`Run.Concludes`). For the rounds of a loop the number of events that count and a measure of the
attempts that are left are spent together (`Concludes.repeatFrom`).

What is asked of the surroundings is that each single call ends (`Host.Total`). -/

namespace Reflash

open Run

variable {ε ε' σ α β : Type}

namespace Run

/-! ## Coming to an end -/

/-- With enough budget the run comes to its end, and more budget changes nothing. -/
def Reaches (r : Run ε σ α) (w : σ) (t : Trail ε σ α) : Prop :=
  t.ending ≠ .unfinished ∧ ∃ n, ∀ m, n ≤ m → r m w = t

/-- With enough budget the run comes to its end, wherever it starts, or more than `k` of its events
count. -/
def Concludes (counts : ε → Bool) (k : Nat) (r : Run ε σ α) : Prop :=
  ∀ w, (∃ t, r.Reaches w t) ∨ ∃ n, ∀ m, n ≤ m → k < (r m w).events.countP counts

namespace Concludes

variable {counts : ε → Bool} {k : Nat}

/-- A run that does not look at its budget, and ends. -/
theorem of_const {r : Run ε σ α} (h : ∀ n w, r n w = r 0 w)
    (hends : ∀ w, (r 0 w).ending ≠ .unfinished) : r.Concludes counts k :=
  fun w => .inl ⟨r 0 w, hends w, 0, fun n _ => h n w⟩

theorem pure (a : α) : (Pure.pure a : Run ε σ α).Concludes counts k :=
  of_const (fun _ _ => rfl) fun _ h => by cases h

theorem raise (e : Fault) : (Run.raise e : Run ε σ α).Concludes counts k :=
  of_const (fun _ _ => rfl) fun _ h => by cases h

theorem emit (event : ε) : (Run.emit event : Run ε σ Unit).Concludes counts k :=
  of_const (fun _ _ => rfl) fun _ h => by cases h

theorem ofFallible (x : Fallible α) : (Run.ofFallible x : Run ε σ α).Concludes counts k := by
  cases x with
  | ok a => exact pure a
  | error e => exact raise e

theorem mono {r : Run ε σ α} {k' : Nat} (hr : r.Concludes counts k) (hk : k' ≤ k) :
    r.Concludes counts k' := by
  intro w
  rcases hr w with h | ⟨n, h⟩
  · exact .inl h
  · exact .inr ⟨n, fun m hm => Nat.lt_of_le_of_lt hk (h m hm)⟩

/-- Only what happens with much budget matters. -/
theorem congr {r r' : Run ε σ α} {n : Nat} (h : ∀ m, n ≤ m → ∀ w, r m w = r' m w)
    (hr : r'.Concludes counts k) : r.Concludes counts k := by
  intro w
  rcases hr w with ⟨t, ht, l, hl⟩ | ⟨l, hl⟩
  · refine .inl ⟨t, ht, max n l, fun m hm => ?_⟩
    rw [h m (by omega) w]
    exact hl m (by omega)
  · refine .inr ⟨max n l, fun m hm => ?_⟩
    rw [h m (by omega) w]
    exact hl m (by omega)

/-- A run that goes on, with some more budget, where another one stopped. -/
theorem of_grows {r r' : Run ε σ α} (h : ∀ n, r.Grows n (n + 1) r') (hr : r.Concludes counts k) :
    r'.Concludes counts k := by
  intro w
  rcases hr w with ⟨t, ht, n, hn⟩ | ⟨n, hn⟩
  · refine .inl ⟨t, ht, n + 1, fun m hm => ?_⟩
    obtain ⟨m, rfl⟩ : ∃ i, m = i + 1 := ⟨m - 1, by omega⟩
    have hm := hn m (by omega)
    rw [← (h m w).eq_of_finished (by rwa [hm]), hm]
  · refine .inr ⟨n + 1, fun m hm => ?_⟩
    obtain ⟨m, rfl⟩ : ∃ i, m = i + 1 := ⟨m - 1, by omega⟩
    have hes := Trail.Precedes.events_prefix (h m w)
    exact Nat.lt_of_lt_of_le (hn m (by omega)) hes.sublist.countP_le

/-- What comes after events of which few enough count. -/
theorem after {r r' : Run ε σ α} {w w' : σ} (es : List ε)
    (h : (∃ t, r.Reaches w' t) ∨
      ∃ n, ∀ m, n ≤ m → k - es.countP counts < (r m w').events.countP counts) (n : Nat)
    (hr : ∀ m, n ≤ m →
      r' m w = ⟨(r m w').ending, es ++ (r m w').events, (r m w').world⟩) :
    (∃ t, r'.Reaches w t) ∨ ∃ n, ∀ m, n ≤ m → k < (r' m w).events.countP counts := by
  rcases h with ⟨t, ht, l, hl⟩ | ⟨l, hl⟩
  · refine .inl ⟨⟨t.ending, es ++ t.events, t.world⟩, ht, max n l, fun m hm => ?_⟩
    rw [hr m (by omega), hl m (by omega)]
  · refine .inr ⟨max n l, fun m hm => ?_⟩
    have := hl m (by omega)
    rw [hr m (by omega), List.countP_append]
    omega

/-- A run that goes on with another one, which may count on what was spent before it. -/
theorem bind_of {r : Run ε σ α} {next : α → Run ε σ β} (hr : r.Concludes counts k)
    (hnext : ∀ es a, r.Leaves es (.returned a) → es.countP counts ≤ k →
      (next a).Concludes counts (k - es.countP counts)) : (r >>= next).Concludes counts k := by
  intro w
  have spent (m : Nat) := (events_prefix_bind r next m w).sublist.countP_le (p := counts)
  rcases hr w with ⟨⟨o, es, w'⟩, ht, n, hn⟩ | ⟨n, hn⟩
  · cases o with
    | unfinished => exact absurd rfl ht
    | raised e =>
      refine .inl ⟨⟨.raised e, es, w'⟩, by simp, n, fun m hm => ?_⟩
      rw [bind_apply, hn m hm]
    | returned a =>
      by_cases hk : es.countP counts ≤ k
      · have hleaves : r.Leaves es (.returned a) := by
          refine ⟨n, w, ?_, ?_⟩ <;> rw [hn n (Nat.le_refl n)]
        exact after es (hnext es a hleaves hk w') n fun m hm => by rw [bind_apply, hn m hm]
      · refine .inr ⟨n, fun m hm => Nat.lt_of_lt_of_le ?_ (spent m)⟩
        rw [hn m hm]
        exact Nat.lt_of_not_le hk
  · exact .inr ⟨n, fun m hm => Nat.lt_of_lt_of_le (hn m hm) (spent m)⟩

theorem bind {r : Run ε σ α} {next : α → Run ε σ β} (hr : r.Concludes counts k)
    (hnext : ∀ a, (next a).Concludes counts k) : (r >>= next).Concludes counts k :=
  hr.bind_of fun _ a _ _ => (hnext a).mono (Nat.sub_le _ _)

/-- A run that goes on with the result of a computation. -/
theorem ofFallible_bind {x : Fallible α} {next : α → Run ε σ β}
    (ok : ∀ a, x = .ok a → (next a).Concludes counts k) :
    ((liftM x : Run ε σ α) >>= next).Concludes counts k := by
  cases x with
  | ok a => exact ok a rfl
  | error e => exact raise e

theorem rescue {r : Run ε σ α} {handler : Fault → Run ε σ α} (hr : r.Concludes counts k)
    (hh : ∀ e, (handler e).Concludes counts k) : (r.rescue handler).Concludes counts k := by
  intro w
  have spent (m : Nat) := (events_prefix_rescue r handler m w).sublist.countP_le (p := counts)
  rcases hr w with ⟨⟨o, es, w'⟩, ht, n, hn⟩ | ⟨n, hn⟩
  · cases o with
    | unfinished => exact absurd rfl ht
    | returned a =>
      refine .inl ⟨⟨.returned a, es, w'⟩, by simp, n, fun m hm => ?_⟩
      unfold Run.rescue
      rw [hn m hm]
    | raised e =>
      refine after es ((hh e).mono (Nat.sub_le _ _) w') n fun m hm => ?_
      unfold Run.rescue
      rw [hn m hm]
  · exact .inr ⟨n, fun m hm => Nat.lt_of_lt_of_le (hn m hm) (spent m)⟩

theorem attempt {r : Run ε σ α} (hr : r.Concludes counts k) : r.attempt.Concludes counts k := by
  intro w
  rcases hr w with ⟨⟨o, es, w'⟩, ht, n, hn⟩ | ⟨n, hn⟩
  · cases o with
    | unfinished => exact absurd rfl ht
    | returned a =>
      refine .inl ⟨⟨.returned (.ok a), es, w'⟩, by simp, n, fun m hm => ?_⟩
      unfold Run.attempt
      rw [hn m hm]
    | raised e =>
      refine .inl ⟨⟨.returned (.error e), es, w'⟩, by simp, n, fun m hm => ?_⟩
      unfold Run.attempt
      rw [hn m hm]
  · refine .inr ⟨n, fun m hm => ?_⟩
    rw [events_attempt]
    exact hn m hm

theorem mapEvents {counts' : ε' → Bool} {r : Run ε σ α} (f : ε → ε')
    (hr : r.Concludes (fun e => counts' (f e)) k) : (r.mapEvents f).Concludes counts' k := by
  intro w
  rcases hr w with ⟨⟨o, es, w'⟩, ht, n, hn⟩ | ⟨n, hn⟩
  · refine .inl ⟨⟨o, es.map f, w'⟩, ht, n, fun m hm => ?_⟩
    unfold Run.mapEvents
    rw [hn m hm]
  · refine .inr ⟨n, fun m hm => ?_⟩
    unfold Run.mapEvents
    rw [List.countP_map]
    exact hn m hm

theorem each {f : α → Run ε σ Unit} {xs : List α} (hf : ∀ x ∈ xs, (f x).Concludes counts k) :
    (Run.each f xs).Concludes counts k := by
  induction xs with
  | nil => exact pure ()
  | cons x xs ih => exact bind (hf x (by simp)) fun _ => ih fun y hy => hf y (by simp [hy])

/-- The rounds of a loop that are made with all but `j` of the budget. -/
def later (round : β → Run ε σ (β ⊕ α)) (j : Nat) (b : β) : Run ε σ α :=
  withBudget fun n => Run.repeatFor round (n - j) b

theorem later_concludes {round : β → Run ε σ (β ⊕ α)} (left : β → Nat)
    (hround : ∀ b, (round b).Concludes counts k)
    (hleft : ∀ b, (round b).Ensures fun es o => ∀ b', o = .returned (.inl b') →
      left b' + 1 ≤ left b + es.countP counts) {k' : Nat} (hk : k' ≤ k) (j : Nat) (b : β) :
    (later round j b).Concludes counts k' := by
  induction hm : left b + k' using Nat.strongRecOn generalizing k' j b with
  | ind m ih =>
    -- With enough budget there is a round, and the others are made with the rest.
    have hnext : (round b >>= Sum.elim (later round (j + 1)) Pure.pure).Concludes counts k' := by
      refine ((hround b).mono hk).bind_of fun es next hleaves hes => ?_
      obtain ⟨n, w, hevents, hending⟩ := hleaves
      cases next with
      | inr a => exact pure a
      | inl b' =>
        have hspent := hleft b n w b' hending
        rw [hevents] at hspent
        exact ih (left b' + (k' - es.countP counts)) (by omega) (by omega) (j + 1) b' rfl
    refine congr (n := j + 1) (fun n hn w => ?_) hnext
    have hi : n - j = n - (j + 1) + 1 := by omega
    change Run.repeatFor round (n - j) b n w = _
    rw [hi, Run.repeatFor, bind_apply, bind_apply]
    rcases round b n w with ⟨(b' | a) | _ | _, es, w'⟩ <;> rfl

/-- A loop comes to an end if each round that lets it go on uses up some of what is left, or leaves an
event that counts. -/
theorem repeatFrom {round : β → Run ε σ (β ⊕ α)} (left : β → Nat)
    (hround : ∀ b, (round b).Concludes counts k)
    (hleft : ∀ b, (round b).Ensures fun es o => ∀ b', o = .returned (.inl b') →
      left b' + 1 ≤ left b + es.countP counts) (b : β) :
    (Run.repeatFrom round b).Concludes counts k :=
  later_concludes left hround hleft (Nat.le_refl k) 0 b

end Concludes

/-! ## Calls that end -/

/-- A run that does not depend on its budget but for how far it gets, and comes to its end with some
budget, wherever it starts. -/
structure Total (r : Run ε σ α) : Prop where
  steady : r.Steady
  ends : ∀ w, ∃ n, (r n w).ending ≠ .unfinished

namespace Total

variable {r : Run ε σ α}

theorem reaches (hr : r.Total) (w : σ) : ∃ t, r.Reaches w t := by
  obtain ⟨n, hn⟩ := hr.ends w
  exact ⟨r n w, hn, n, fun m hm => hr.steady.eq_of_finished hn hm⟩

theorem concludes (hr : r.Total) (counts : ε → Bool) (k : Nat) : r.Concludes counts k :=
  fun w => .inl (hr.reaches w)

/-- A steady run is total if it concludes although nothing counts. -/
theorem of_concludes (hr : r.Steady) (h : r.Concludes (fun _ => false) 0) : r.Total := by
  refine ⟨hr, fun w => ?_⟩
  rcases h w with ⟨t, ht, n, hn⟩ | ⟨n, hn⟩
  · exact ⟨n, by rwa [hn n (Nat.le_refl n)]⟩
  · exact absurd (hn n (Nat.le_refl n)) (by simp)

theorem world (f : σ → α × σ) : (Run.world f : Run ε σ α).Total :=
  .of_concludes (fun _ _ _ => .world f) (.of_const (fun _ _ => rfl) fun _ h => by cases h)

end Total

end Run

/-- To come to an end is a closed property. -/
theorem Job.total_closed {host : Host σ} :
    Job.Closed host fun {_ : Type} (job : Job σ _) => job.Total where
  emit s _ := .of_concludes (fun _ _ _ => .emit s) (.emit s)
  notify _ := .world _
  ofFallible x := .of_concludes (fun _ _ _ => .ofFallible x) (.ofFallible x)
  bind hjob hnext := .of_concludes (fun n m h => .bind (hjob.steady n m h) fun a =>
    (hnext a).steady n m h)
    (.bind (hjob.concludes _ _) fun a => (hnext a).concludes _ _)
  rescue hjob hhandler := .of_concludes
    (fun n m h => .rescue (hjob.steady n m h) fun e => (hhandler e).steady n m h)
    (.rescue (hjob.concludes _ _) fun e => (hhandler e).concludes _ _)
  attempt hjob := .of_concludes (fun n m h => .attempt (hjob.steady n m h))
    (.attempt (hjob.concludes _ _))

/-- Each single call of what the host does comes to its end. -/
def Host.Total (host : Host σ) : Prop :=
  host.Keeps fun {_ : Type} (job : Job σ _) => job.Total

end Reflash
