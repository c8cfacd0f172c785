import Reflash.Builtin.Table
import Reflash.Proofs.Declining
import Reflash.Proofs.Plain

set_option autoImplicit false

/-! # Waiting for a device

What a wait comes to is a matter of the checks and the answers that are to come: of the first check that
is no miss, and of the first answer that does not let the wait go on. The two sequences are read off the
world (`Host.Plays`), so the checks and the questions of a wait can be told from what is left of them,
and the order in which they came from what it left to be seen (`Tally`). -/

namespace Reflash

open Run

variable {σ : Type}

/-! ## Checks and answers to come -/

/-- The question, if any, that a signal puts to the user. -/
def Signal.request? : Signal → Option PromptRequest
  | prompted request => some request
  | _ => none

/-- Whether a signal is a check whether the tool reaches a device. -/
def Signal.checks (tool : DeviceTool) : Signal → Bool
  | called collaborator method _ => collaborator == tool.text && method == "has_access"
  | _ => false

section

variable {tool : DeviceTool}

@[simp] theorem Signal.request?_prompted (request : PromptRequest) :
    (prompted request).request? = some request := rfl

@[simp] theorem Signal.request?_called (collaborator method : String) (args : List Value) :
    (called collaborator method args).request? = none := rfl

@[simp] theorem Signal.request?_logged (line : LogLine) : (logged line).request? = none := rfl

@[simp] theorem Signal.checks_prompted (request : PromptRequest) :
    (prompted request).checks tool = false := rfl

@[simp] theorem Signal.checks_called : (called tool.text "has_access" []).checks tool = true := by
  simp [checks]

@[simp] theorem Signal.checks_logged (line : LogLine) : (logged line).checks tool = false := rfl

end

/-- What a wait does to find out about a device: it checks, or it asks the user. -/
inductive Look where
  | check
  | question
deriving DecidableEq

/-- The check or the question, if any, that a signal is. -/
def Signal.look? (tool : DeviceTool) (s : Signal) : Option Look :=
  if s.checks tool then some .check else s.request?.map fun _ => .question

/-- The signal is neither a question nor a check. -/
def Signal.Aside (tool : DeviceTool) (s : Signal) : Prop :=
  s.request? = none ∧ s.checks tool = false

section

variable {tool : DeviceTool} {es : List Signal}

theorem Signal.countP_of_aside (h : ∀ e ∈ es, e.Aside tool) : es.countP (checks tool) = 0 :=
  List.countP_eq_zero.mpr fun e he => by simp [(h e he).2]

theorem Signal.filterMap_of_aside (h : ∀ e ∈ es, e.Aside tool) : es.filterMap request? = [] :=
  List.filterMap_eq_nil_iff.mpr fun e he => (h e he).1

theorem Signal.looks_of_aside (h : ∀ e ∈ es, e.Aside tool) : es.filterMap (look? tool) = [] :=
  List.filterMap_eq_nil_iff.mpr fun e he => by simp [look?, (h e he).1, (h e he).2]

end

/-- In each state of the world, `checks` and `answers` are the results of the tool's checks and the
answers of the user that are to come. A check uses up the first result and a question the first answer;
nothing else does. -/
structure Host.Plays (host : Host σ) (tool : DeviceTool) (checks : σ → Nat → Fallible Bool)
    (answers : σ → Nat → Decision) : Prop where
  notify : ∀ notice w, checks (host.notify notice w) = checks w ∧
    answers (host.notify notice w) = answers w
  check : ∀ n w, ∃ es w',
    (host.tools.hasAccess tool).attempt n w = ⟨.returned (checks w 0), es, w'⟩ ∧
    (∀ e ∈ es, e.Aside tool) ∧ checks w' = (fun i => checks w (1 + i)) ∧ answers w' = answers w
  answer : ∀ request n w, ∃ es w',
    host.decide request n w = ⟨.returned (answers w 0), es, w'⟩ ∧
    (∀ e ∈ es, e.Aside tool) ∧ checks w' = checks w ∧ answers w' = fun i => answers w (1 + i)

/-- A host for any results and any answers: the world is what is to come. -/
def Host.scripted : Host ((Nat → Fallible Bool) × (Nat → Decision)) where
  notify _ w := w
  decide _ := Run.world fun w => (w.2 0, w.1, fun i => w.2 (1 + i))
  pause := return ()
  tools := { (Host.answering {}).tools with
    hasAccess := fun _ => do
      Run.ofFallible (← Run.world fun w => (w.1 0, fun i => w.1 (1 + i), w.2)) }

theorem Host.scripted_plays (tool : DeviceTool) : Host.scripted.Plays tool Prod.fst Prod.snd where
  notify _ _ := ⟨rfl, rfl⟩
  check n w := by
    refine ⟨[], (fun i => w.1 (1 + i), w.2), ?_, by simp, rfl, rfl⟩
    rcases h : w.1 0 with e | found
    · simp [scripted, Run.attempt, bind_apply, Run.world, h, Run.ofFallible, Run.raise]
    · simp [scripted, Run.attempt, bind_apply, Run.world, h, Run.ofFallible, Run.pure]
  answer _ _ w := ⟨[], (w.1, fun i => w.2 (1 + i)), rfl, by simp, rfl, rfl⟩

namespace Builtin

/-- The question of a wait. -/
def deviceRequest (tool : DeviceTool) : PromptRequest where
  prompt := .connectionLost
  action := some (tool.text ++ ":wait")
  cause := some (tool.label ++ " found no device")

/-- A check, and the answer to the question that follows if it finds no device, conclude a wait: how it
ends, and with how many questions after that check. -/
inductive Concludes (check : Fallible Bool) (answer : Decision) : Ending Value → Nat → Prop
  | reached (h : check = .ok true) : Concludes check answer (.returned .null) 0
  | inconclusive {e : Fault} (h : check = .error e) (kind : e.kind ≠ .killed) :
    Concludes check answer (.returned .null) 0
  | declined (h : check = .ok false) (declines : answer.resumes = false) :
    Concludes check answer (.raised (.aborted "connection lost")) 1
  | killed {e : Fault} (h : check = .error e) (kind : e.kind = .killed) :
    Concludes check answer (.raised e) 0

section

variable (checks : Nat → Fallible Bool) (answers : Nat → Decision)

/-- The first `k` checks find no device, and each time the answer lets the wait go on. -/
def Missed (k : Nat) : Prop :=
  ∀ i < k, checks i = .ok false ∧ (answers i).resumes = true

/-- The checks that find no device, and the question after each of them. -/
def misses : Nat → List Look
  | 0 => []
  | k + 1 => .check :: .question :: misses k

/-- How a wait ends that can make `m` checks, how many checks and questions there are in it, and how they
follow one another. -/
inductive Waits (m : Nat) : Ending Value → Nat → Nat → List Look → Prop
  | concluded {k : Nat} {o : Ending Value} {q : Nat} (hk : k < m) (missed : Missed checks answers k)
    (last : Concludes (checks k) (answers k) o q) :
    Waits m o (k + 1) (k + q) (misses k ++ .check :: List.replicate q .question)
  | spent (missed : Missed checks answers m) : Waits m .unfinished m m (misses m)

end

section

variable {checks : Nat → Fallible Bool} {answers : Nat → Decision} {k k' m : Nat}
  {o o' : Ending Value} {c c' q q' : Nat} {looks looks' : List Look}

theorem misses_succ (k : Nat) : misses (1 + k) = .check :: .question :: misses k := by
  rw [Nat.add_comm, misses]

theorem misses_concat (k : Nat) : misses k ++ [.check, .question] = misses (k + 1) := by
  induction k with
  | zero => rfl
  | succ k ih => rw [misses, List.cons_append, List.cons_append, ih, ← misses]

theorem Concludes.not_miss {check : Fallible Bool} {answer : Decision}
    (h : Concludes check answer o q) : ¬(check = .ok false ∧ answer.resumes = true) := by
  rintro ⟨rfl, hresumes⟩
  cases h with
  | declined _ declines => cases hresumes.symm.trans declines
  | reached h | inconclusive h | killed h => cases h

theorem Concludes.unique {check : Fallible Bool} {answer : Decision}
    (h : Concludes check answer o q) (h' : Concludes check answer o' q') : o = o' ∧ q = q' := by
  cases h <;> cases h' <;> simp_all

/-- Before a wait is concluded there are only misses. -/
theorem Missed.le_of_concludes (h : Missed checks answers k)
    (h' : Concludes (checks k') (answers k') o q) : k ≤ k' :=
  Nat.le_of_not_lt fun hlt => h'.not_miss (h k' hlt)

theorem Waits.unique (h : Waits checks answers m o c q looks)
    (h' : Waits checks answers m o' c' q' looks') : o = o' ∧ c = c' ∧ q = q' ∧ looks = looks' := by
  cases h with
  | @concluded k o q hk missed last =>
    cases h' with
    | @concluded k' o' q' hk' missed' last' =>
      obtain rfl : k = k' :=
        Nat.le_antisymm (missed.le_of_concludes last') (missed'.le_of_concludes last)
      obtain ⟨rfl, rfl⟩ := last.unique last'
      exact ⟨rfl, rfl, rfl, rfl⟩
    | spent missed' => exact absurd (missed'.le_of_concludes last) (by omega)
  | spent missed =>
    cases h' with
    | concluded hk' missed' last' => exact absurd (missed.le_of_concludes last') (by omega)
    | spent missed' => exact ⟨rfl, rfl, rfl, rfl⟩

theorem Missed.succ (hcheck : checks 0 = .ok false) (hanswer : (answers 0).resumes = true)
    (h : Missed (fun i => checks (1 + i)) (fun i => answers (1 + i)) k) :
    Missed checks answers (1 + k) := by
  intro i hi
  cases i with
  | zero => exact ⟨hcheck, hanswer⟩
  | succ i =>
    rw [Nat.add_comm i 1]
    exact h i (by omega)

/-- A miss at the start puts the conclusion off by one check and one question. -/
theorem Waits.succ (hcheck : checks 0 = .ok false) (hanswer : (answers 0).resumes = true)
    (h : Waits (fun i => checks (1 + i)) (fun i => answers (1 + i)) m o c q looks) :
    Waits checks answers (1 + m) o (1 + c) (1 + q) (.check :: .question :: looks) := by
  cases h with
  | @concluded k _ q hk missed last =>
    rw [← Nat.add_assoc 1 k 1, ← Nat.add_assoc 1 k q, ← List.cons_append, ← List.cons_append,
      ← misses_succ]
    exact .concluded (by omega) (missed.succ hcheck hanswer) last
  | spent missed =>
    rw [← misses_succ]
    exact .spent (missed.succ hcheck hanswer)

end

/-! ## The wait -/

/-- What was seen of a wait from the world `w` to the world `w'`: how many checks and how many questions
there were, how they followed one another, and that these are the ones which were used up. -/
structure Tally (tool : DeviceTool) (checks : σ → Nat → Fallible Bool) (answers : σ → Nat → Decision)
    (w : σ) (c q : Nat) (looks : List Look) (es : List Signal) (w' : σ) : Prop where
  checked : es.countP (Signal.checks tool) = c
  asked : es.filterMap Signal.request? = List.replicate q (deviceRequest tool)
  looked : es.filterMap (Signal.look? tool) = looks
  checksLeft : checks w' = fun i => checks w (c + i)
  answersLeft : answers w' = fun i => answers w (q + i)

section

variable {tool : DeviceTool} {checks : σ → Nat → Fallible Bool} {answers : σ → Nat → Decision}
  {w w' w'' : σ} {c c' q q' : Nat} {looks looks' : List Look} {es es' : List Signal}

theorem Tally.append (h : Tally tool checks answers w c q looks es w')
    (h' : Tally tool checks answers w' c' q' looks' es' w'') :
    Tally tool checks answers w (c + c') (q + q') (looks ++ looks') (es ++ es') w'' where
  checked := by rw [List.countP_append, h.checked, h'.checked]
  asked := by rw [List.filterMap_append, h.asked, h'.asked, List.replicate_append_replicate]
  looked := by rw [List.filterMap_append, h.looked, h'.looked]
  checksLeft := by simp only [h'.checksLeft, h.checksLeft, Nat.add_assoc]
  answersLeft := by simp only [h'.answersLeft, h.answersLeft, Nat.add_assoc]

/-- Signals that are no questions and no checks count for nothing. -/
theorem Tally.aside (hes : ∀ e ∈ es, e.Aside tool) (hchecks : checks w' = checks w)
    (hanswers : answers w' = answers w) : Tally tool checks answers w 0 0 [] es w' where
  checked := Signal.countP_of_aside hes
  asked := Signal.filterMap_of_aside hes
  looked := Signal.looks_of_aside hes
  checksLeft := by simp [hchecks]
  answersLeft := by simp [hanswers]

variable {ctx : Context σ} (hplays : ctx.host.Plays tool checks answers) (n : Nat)
include hplays

theorem tell_tally (notice : Notice) (w : σ) :
    ∃ es w', ctx.host.tell notice n w = ⟨.returned (), es, w'⟩ ∧
      Tally tool checks answers w 0 0 [] es w' := by
  obtain ⟨hchecks, hanswers⟩ := hplays.notify notice w
  exact ⟨_, _, rfl, .aside (List.forall_mem_singleton.mpr ⟨rfl, rfl⟩) hchecks hanswers⟩

theorem announce_tally (status under : String) (determinate : Bool) (w : σ) :
    ∃ es w', ctx.host.announce status under determinate n w = ⟨.returned (), es, w'⟩ ∧
      Tally tool checks answers w 0 0 [] es w' := by
  obtain ⟨es₁, w₁, h₁, tally₁⟩ := tell_tally hplays n .idle w
  obtain ⟨es₂, w₂, h₂, tally₂⟩ := tell_tally hplays n (.status status (some determinate)) w₁
  obtain ⟨es₃, w₃, h₃, tally₃⟩ := tell_tally hplays n (.under under) w₂
  refine ⟨es₁ ++ (es₂ ++ es₃), w₃, ?_, tally₁.append (tally₂.append tally₃)⟩
  rw [Host.announce, bind_of_returned h₁, bind_of_returned h₂, h₃]
  rfl

theorem ask_tally (w : σ) :
    ∃ es w', ctx.host.ask .connectionLost .null (some (tool.text ++ ":wait")) none
        (some (tool.label ++ " found no device")) n w = ⟨.returned (answers w 0), es, w'⟩ ∧
      Tally tool checks answers w 0 1 [.question] es w' := by
  obtain ⟨es, w', hdecide, haside, hchecks, hanswers⟩ := hplays.answer (deviceRequest tool) n w
  unfold deviceRequest at hdecide
  let line (message : String) : Signal := .logged ⟨.debug, "events", message⟩
  refine ⟨line ("Waiting for user decision: " ++ Prompt.connectionLost.text) ::
    .prompted (deviceRequest tool) :: (es ++ [line ("User decided " ++ (answers w 0).choice.text ++
      " on " ++ Prompt.connectionLost.text)]), w', ?_, ?_, ?_, ?_, by simp [hchecks], hanswers⟩
  · rw [Host.ask, bind_of_returned (r := Run.ofFallible _) (a := []) rfl,
      bind_of_returned (r := Host.log _ _ _) rfl, bind_of_returned (r := Run.emit _) rfl,
      bind_of_returned (rescue_of_returned hdecide _), bind_of_returned (r := Host.log _ _ _) rfl,
      pure_apply]
    rfl
  · simp [line, Signal.countP_of_aside haside]
  · simp [line, List.filterMap_cons, Signal.filterMap_of_aside haside]
  · simp [line, Signal.look?, Signal.looks_of_aside haside]

/-- A round of a wait is a miss, or it concludes the wait. -/
theorem waitRound_cases {w : σ} (hordinary : ∀ e, checks w 0 = .error e → e.isOrdinary) :
    (∃ es w', waitRound ctx tool n w = ⟨.returned (.inl ()), es, w'⟩ ∧ checks w 0 = .ok false ∧
      (answers w 0).resumes = true ∧ Tally tool checks answers w 1 1 [.check, .question] es w') ∨
    ∃ o q es w', waitRound ctx tool n w = ⟨o.map .inr, es, w'⟩ ∧
      Concludes (checks w 0) (answers w 0) o q ∧
      Tally tool checks answers w 1 q (.check :: List.replicate q .question) es w' := by
  obtain ⟨es, w₁, hcheck, haside, hchecks, hanswers⟩ := hplays.check n w
  -- Every round starts with a check.
  have checked : Tally tool checks answers w 1 0 [.check]
      (.called tool.text "has_access" [] :: es) w₁ :=
    ⟨by simp [Signal.countP_of_aside haside], by simpa using fun e he => (haside e he).1,
      by simp [Signal.look?, Signal.looks_of_aside haside], hchecks, by simp [hanswers]⟩
  rw [waitRound, bind_of_returned (r := Run.emit _) rfl, bind_of_returned hcheck, Trail.after_after]
  rcases hlast : checks w 0 with e | _ | _
  · right
    have hordinary := hordinary e hlast
    by_cases hkind : e.kind = .killed
    · refine ⟨_, 0, _, w₁, ?_, .killed rfl hkind, checked⟩
      simp [hordinary, hkind, Run.raise, Trail.after, Ending.map]
    · have logged : Tally tool checks answers w₁ 0 0 [] [.logged ⟨.warning, "plugins.base",
          tool.label ++ " access check failed: " ++ e.text⟩] w₁ :=
        .aside (List.forall_mem_singleton.mpr ⟨rfl, rfl⟩) rfl rfl
      refine ⟨_, 0, _, w₁, ?_, .inconclusive rfl hkind, checked.append logged⟩
      simp [hordinary, hkind, Host.log, Run.emit, bind_apply, pure_apply, Trail.after, Ending.map]
  · obtain ⟨es', w₂, hask, asked⟩ := ask_tally hplays n w₁
    rw [hanswers] at hask
    dsimp only
    rw [bind_of_returned hask, Trail.after_after]
    cases hanswer : (answers w 0).resumes with
    | true =>
      exact .inl ⟨_, w₂, by simp [pure_apply, Trail.after], rfl, rfl, checked.append asked⟩
    | false =>
      refine .inr ⟨_, 1, _, w₂, ?_, .declined rfl hanswer, checked.append asked⟩
      simp [Run.raise, Trail.after, Ending.map]
  · refine .inr ⟨_, 0, _, w₁, ?_, .reached rfl, checked⟩
    simp [pure_apply, Trail.after, Ending.map]

/-- A loop of `m` rounds ends with the first that is no miss. -/
theorem repeatFor_waits (m : Nat) {w : σ} (hordinary : ∀ i e, checks w i = .error e → e.isOrdinary) :
    ∃ o c q looks es w', Run.repeatFor (fun _ => waitRound ctx tool) m () n w = ⟨o, es, w'⟩ ∧
      Waits (checks w) (answers w) m o c q looks ∧ Tally tool checks answers w c q looks es w' := by
  -- After a miss the rest of the loop is a wait of its own, for what is to come then.
  induction m generalizing w with
  | zero =>
    exact ⟨.unfinished, 0, 0, [], [], w, rfl, .spent fun i hi => absurd hi (by omega),
      .aside (by simp) rfl rfl⟩
  | succ m ih =>
    rw [Run.repeatFor]
    rcases waitRound_cases hplays n (hordinary 0) with ⟨es, w₁, hround, hcheck, hanswer, tally⟩ |
      ⟨o, q, es, w', hround, hlast, tally⟩
    · have hrest : ∀ i e, checks w₁ i = .error e → e.isOrdinary := by
        rw [tally.checksLeft]
        exact fun i => hordinary (1 + i)
      obtain ⟨o, c, q, looks, es', w', hloop, hwaits, htally⟩ := ih hrest
      rw [tally.checksLeft, tally.answersLeft] at hwaits
      refine ⟨o, 1 + c, 1 + q, _, es ++ es', w', ?_, ?_, tally.append htally⟩
      · rw [bind_of_returned hround]
        exact congrArg (Trail.after · es) hloop
      · rw [Nat.add_comm m 1]
        exact hwaits.succ hcheck hanswer
    · have hconcluded : Waits (checks w) (answers w) (m + 1) o (0 + 1) (0 + q)
          (.check :: List.replicate q .question) :=
        .concluded (by omega) (fun i hi => absurd hi (by omega)) hlast
      rw [Nat.zero_add, Nat.zero_add] at hconcluded
      refine ⟨o, 1, q, _, es, w', ?_, hconcluded, tally⟩
      rw [bind_apply, hround]
      cases o with
      | returned v => simp [Ending.map, pure_apply]
      | raised e | unfinished => rfl

/-- A wait goes as the checks and answers say that are to come, as far as its budget lets it. -/
theorem wait_waits (payload : Value) {w : σ}
    (hordinary : ∀ i e, checks w i = .error e → e.isOrdinary) :
    ∃ c q looks, Waits (checks w) (answers w) n (wait tool payload ctx n w).ending c q looks ∧
      Tally tool checks answers w c q looks (wait tool payload ctx n w).events
        (wait tool payload ctx n w).world := by
  obtain ⟨es, w₁, hannounce, announced⟩ := announce_tally hplays n "Waiting for device"
    (tool.label ++ " is scanning for devices") true w
  have hchecks : checks w₁ = checks w := by simpa using announced.checksLeft
  have hanswers : answers w₁ = answers w := by simpa using announced.answersLeft
  obtain ⟨o, c, q, looks, es', w', hloop, hwaits, tally⟩ :=
    repeatFor_waits hplays n n (hchecks ▸ hordinary)
  rw [hchecks, hanswers] at hwaits
  have hwait : wait tool payload ctx n w = ⟨o, es ++ es', w'⟩ := by
    rw [wait, bind_of_returned hannounce, Run.repeatFrom, Run.withBudget, hloop]
    rfl
  rw [hwait]
  refine ⟨c, q, looks, hwaits, ?_⟩
  simpa using announced.append tally

end

/-! ## Outcomes -/

section

variable (checks : Nat → Fallible Bool) (answers : Nat → Decision) (k : Nat)

/-- After `k` misses a check finds the device, or fails without being killed. -/
def Found : Prop :=
  Missed checks answers k ∧ (checks k = .ok true ∨ ∃ e, checks k = .error e ∧ e.kind ≠ .killed)

/-- After `k` misses a check finds no device, and the user does not let the wait go on. -/
def GivenUp : Prop :=
  Missed checks answers k ∧ checks k = .ok false ∧ (answers k).resumes = false

/-- After `k` misses a check is killed. -/
def Killed (e : Fault) : Prop :=
  Missed checks answers k ∧ checks k = .error e ∧ e.kind = .killed

end

section

variable {checks : Nat → Fallible Bool} {answers : Nat → Decision} {k m c q : Nat}
  {looks : List Look}

theorem Found.waits (hk : k < m) (h : Found checks answers k) :
    Waits checks answers m (.returned .null) (k + 1) k (misses k ++ [.check]) := by
  obtain ⟨missed, hreached | ⟨e, hfailed, kind⟩⟩ := h
  · exact .concluded hk missed (.reached hreached)
  · exact .concluded hk missed (.inconclusive hfailed kind)

theorem GivenUp.waits (hk : k < m) (h : GivenUp checks answers k) :
    Waits checks answers m (.raised (.aborted "connection lost")) (k + 1) (k + 1) (misses (k + 1)) :=
  misses_concat k ▸ .concluded hk h.1 (.declined h.2.1 h.2.2)

theorem Killed.waits {e : Fault} (hk : k < m) (h : Killed checks answers k e) :
    Waits checks answers m (.raised e) (k + 1) k (misses k ++ [.check]) :=
  .concluded hk h.1 (.killed h.2.1 h.2.2)

/-- A wait that returns has found the device. -/
theorem Waits.found {v : Value} (h : Waits checks answers m (.returned v) c q looks) :
    ∃ k < m, Found checks answers k := by
  cases h with
  | @concluded k _ _ hk missed last =>
    refine ⟨k, hk, missed, ?_⟩
    cases last with
    | reached hreached => exact .inl hreached
    | inconclusive hfailed kind => exact .inr ⟨_, hfailed, kind⟩

theorem Waits.value {v : Value} (h : Waits checks answers m (.returned v) c q looks) : v = .null := by
  cases h with
  | concluded hk missed last => cases last <;> rfl

/-- A wait that fails was given up, or killed. -/
theorem Waits.failed {e : Fault} (h : Waits checks answers m (.raised e) c q looks) :
    (e = .aborted "connection lost" ∧ ∃ k < m, GivenUp checks answers k) ∨
      ∃ k < m, Killed checks answers k e := by
  cases h with
  | @concluded k _ _ hk missed last =>
    cases last with
    | declined hmiss hdeclines => exact .inl ⟨rfl, k, hk, missed, hmiss, hdeclines⟩
    | killed hfailed kind => exact .inr ⟨k, hk, missed, hfailed, kind⟩

theorem Waits.missed (h : Waits checks answers m .unfinished c q looks) : Missed checks answers m := by
  cases h with
  | concluded hk missed last => cases last
  | spent missed => exact missed

end

variable {wf : Workflow σ} {tool : DeviceTool} {checks : σ → Nat → Fallible Bool}
  {answers : σ → Nat → Decision}

/-- What waiting for a device comes to, with a budget of `n` checks, for any results of the checks and
any answers that are to come.

It returns exactly if, after some misses, a check finds the device or fails without being killed. It is
given up exactly if, after some misses, a question is answered otherwise; it fails with the error of a
check exactly if that was killed; and it is unfinished as long as there are only misses. There is a
question after each check that finds no device, and no check after the question that gives up.

A wait that returns leads to the next action. Where it fails, the actions after it are not reached, and
neither is any question of the run around it: the run ends. -/
theorem wait_outcomes (hplays : wf.ctx.host.Plays tool checks answers) {a : Action} {d : Dispatch}
    (hd : a.dispatch = .ok d) (hhandler : wf.table.handler? d.id = some (wait tool)) (n : Nat) {w : σ}
    (hordinary : ∀ i e, checks w i = .error e → e.isOrdinary) :
    let t := wait tool d.payload wf.ctx n w
    ((∃ v, t.ending = .returned v) ↔ ∃ k < n, Found (checks w) (answers w) k) ∧
    (∀ e, t.ending = .raised e ↔
      (e = .aborted "connection lost" ∧ ∃ k < n, GivenUp (checks w) (answers w) k) ∨
        ∃ k < n, Killed (checks w) (answers w) k e) ∧
    (t.ending = .unfinished ↔ Missed (checks w) (answers w) n) ∧
    (∀ k < n, Found (checks w) (answers w) k ∨ (∃ e, Killed (checks w) (answers w) k e) →
      Tally tool checks answers w (k + 1) k (misses k ++ [.check]) t.events t.world) ∧
    (∀ k < n, GivenUp (checks w) (answers w) k →
      Tally tool checks answers w (k + 1) (k + 1) (misses (k + 1)) t.events t.world) ∧
    (∀ v, t.ending = .returned v → ∀ runSteps rest,
      Flow.actions runSteps wf.table wf.ctx (a :: rest) n w =
        (Flow.actions runSteps wf.table wf.ctx rest n t.world).after (Flow.called d t.events)) ∧
    (∀ e, t.ending = .raised e →
      (∀ runSteps rest, Flow.actions runSteps wf.table wf.ctx (a :: rest) n w =
        ⟨.raised (Flow.asFailureOf d.id e), Flow.called d t.events ++ [.raised e], t.world⟩) ∧
      wf.EndsBy e) := by
  intro t
  obtain ⟨c, q, looks, hwaits, tally⟩ := wait_waits hplays n d.payload hordinary
  -- Any account of the wait that fits is the account of it.
  have ends {o : Ending Value} {c' q' : Nat} {looks' : List Look}
      (h : Waits (checks w) (answers w) n o c' q' looks') :
      t.ending = o ∧ Tally tool checks answers w c' q' looks' t.events t.world := by
    obtain ⟨heq, rfl, rfl, rfl⟩ := hwaits.unique h
    exact ⟨heq, tally⟩
  have failed {e : Fault} (he : t.ending = .raised e) :
      (e = .aborted "connection lost" ∧ ∃ k < n, GivenUp (checks w) (answers w) k) ∨
        ∃ k < n, Killed (checks w) (answers w) k e :=
    Waits.failed (he ▸ hwaits)
  refine ⟨⟨fun ⟨v, hv⟩ => Waits.found (hv ▸ hwaits), fun ⟨k, hk, h⟩ => ⟨.null, (ends (h.waits hk)).1⟩⟩,
    fun e => ⟨failed, ?_⟩, ⟨fun h => Waits.missed (h ▸ hwaits), fun h => (ends (.spent h)).1⟩,
    fun k hk h => ?_, fun k hk h => (ends (h.waits hk)).2, fun v hv runSteps rest => ?_,
    fun e he => ⟨fun runSteps rest => ?_, ?_⟩⟩
  · rintro (⟨rfl, k, hk, h⟩ | ⟨k, hk, h⟩)
    · exact (ends (h.waits hk)).1
    · exact (ends (h.waits hk)).1
  · rcases h with h | ⟨e, h⟩
    · exact (ends (h.waits hk)).2
    · exact (ends (h.waits hk)).2
  · obtain rfl : v = .null := Waits.value (hv ▸ hwaits)
    have hrun : wait tool d.payload wf.ctx n w = ⟨.returned .null, t.events, t.world⟩ :=
      congrArg (Trail.mk · t.events t.world) hv
    exact bind_of_returned (Flow.action_of_null hd hhandler runSteps hrun) _
  · have hrun : wait tool d.payload wf.ctx n w = ⟨.raised e, t.events, t.world⟩ :=
      congrArg (Trail.mk · t.events t.world) he
    rw [Flow.actions, Run.each, bind_apply, Flow.action_of_raised hd hhandler runSteps hrun]
  · rcases failed he with ⟨rfl, -⟩ | ⟨k, -, h⟩
    · exact wf.endsBy_aborted _
    · exact wf.endsBy_of_killed h.2.2

/-- A device that is there at the third check has the user asked twice. A user who gives up at the first
question is not asked about the step any more, and no check follows. A check that is killed ends the wait
and the run. -/
theorem third_check_finds_device :
    let wf : Workflow ((Nat → Fallible Bool) × (Nat → Decision)) := {
      table := table
      ctx := {
        device := default
        system := default
        settings := {}
        host := .scripted
        cache := default } }
    let late : (Nat → Fallible Bool) × (Nat → Decision) :=
      (fun i => .ok (2 ≤ i : Bool), fun _ => { choice := .retry })
    let never : (Nat → Fallible Bool) × (Nat → Decision) :=
      (fun _ => .ok false, fun _ => { choice := .abort })
    let cut : (Nat → Fallible Bool) × (Nat → Decision) :=
      (fun i => if i = 0 then .ok false else .error (.killed "stopped"), fun _ => { choice := .retry })
    ((∃ v, (wait .adb .null wf.ctx 3 late).ending = .returned v) ∧
      (wait .adb .null wf.ctx 3 late).events.filterMap Signal.request? =
        [deviceRequest .adb, deviceRequest .adb]) ∧
    ((wait .adb .null wf.ctx 3 never).ending = .raised (.aborted "connection lost") ∧
      (wait .adb .null wf.ctx 3 never).events.filterMap (Signal.look? .adb) = [.check, .question] ∧
      wf.EndsBy (.aborted "connection lost")) ∧
    ((wait .adb .null wf.ctx 3 cut).ending = .raised (.killed "stopped") ∧
      (wait .adb .null wf.ctx 3 cut).events.filterMap (Signal.look? .adb) =
        [.check, .question, .check] ∧
      wf.EndsBy (.killed "stopped")) := by
  intro wf late never cut
  have hplays : wf.ctx.host.Plays .adb Prod.fst Prod.snd := Host.scripted_plays .adb
  have hd : (Action.named "adb:wait").dispatch = .ok ⟨"adb:wait", "adb", "wait", .null⟩ := by cbv
  have hhandler : wf.table.handler? "adb:wait" = some (wait .adb) := by cbv
  have hfound : Found late.1 late.2 2 := by
    refine ⟨fun i hi => ⟨?_, rfl⟩, .inl rfl⟩
    simp [late, Nat.not_le.mpr hi]
  have hgivenUp : GivenUp never.1 never.2 0 := ⟨fun i hi => absurd hi (by omega), rfl, rfl⟩
  have hkilled : Killed cut.1 cut.2 1 (.killed "stopped") := by
    refine ⟨fun i hi => ?_, rfl, rfl⟩
    obtain rfl : i = 0 := by omega
    exact ⟨rfl, rfl⟩
  have hordinary (i : Nat) (e : Fault) (h : cut.1 i = .error e) : e.isOrdinary = true := by
    dsimp only [cut] at h
    split at h
    · cases h
    · cases h
      rfl
  obtain ⟨hreturns, -, -, htally, -⟩ :=
    wait_outcomes hplays hd hhandler 3 (w := late) fun i e h => by cases h
  obtain ⟨-, hraises, -, -, hasked, -, hends⟩ :=
    wait_outcomes hplays hd hhandler 3 (w := never) fun i e h => by cases h
  obtain ⟨-, hraises', -, htally', -, -, hends'⟩ :=
    wait_outcomes hplays hd hhandler 3 (w := cut) hordinary
  have hraised := (hraises (.aborted "connection lost")).mpr (.inl ⟨rfl, 0, by omega, hgivenUp⟩)
  have hraised' := (hraises' (.killed "stopped")).mpr (.inr ⟨1, by omega, hkilled⟩)
  exact ⟨⟨hreturns.mpr ⟨2, by omega, hfound⟩, (htally 2 (by omega) (.inl hfound)).asked⟩,
    ⟨hraised, (hasked 0 (by omega) hgivenUp).looked, (hends _ hraised).2⟩,
    ⟨hraised', (htally' 1 (by omega) (.inr ⟨_, hkilled⟩)).looked, (hends' _ hraised').2⟩⟩

end Builtin

end Reflash
