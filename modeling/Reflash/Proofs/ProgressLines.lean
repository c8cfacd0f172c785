import Mathlib
import Reflash.Console
import Reflash.Proofs.Ensures
import Reflash.Proofs.Writing

set_option autoImplicit false

/-! # Lines of progress

The shell remembers one percentage and prints another one only if it is above zero and in another tenth
(`Console.notify_progress`). What a sequence of notices prints of its percentages is therefore decided by
their whole parts alone (`Console.showAll_progress`), and of percentages that never fall it is the first
one in each tenth (`Console.entering_filter`).

The main statement is `Console.progress_once_per_tenth`: after a headline every tenth that is reached gets
one line. -/

namespace Reflash

/-! ## Numbers -/

namespace Number

/-- The number `± m · 2 ^ q`. -/
def dyadic (negative : Bool) (m : Nat) (q : Int) : ℚ :=
  (if negative then -(m : ℚ) else m) * 2 ^ q

/-- What is left of a number that is not negative when its fraction is dropped. -/
theorem truncateParts_eq_floor {negative : Bool} {m : Nat} {q : Int} (h : 0 ≤ dyadic negative m q) :
    truncateParts negative m q = ⌊dyadic negative m q⌋ := by
  have hpow : (0 : ℚ) < 2 ^ q := zpow_pos (by norm_num) q
  cases negative with
  | true =>
    -- Only zero has a minus sign and is not negative.
    have hm : m = 0 := by
      by_contra hne
      have hpos : (0 : ℚ) < m := by exact_mod_cast Nat.pos_of_ne_zero hne
      have hneg : dyadic true m q < 0 := by
        simpa [dyadic] using mul_pos hpos hpow
      linarith
    simp [hm, truncateParts, dyadic]
  | false =>
    unfold truncateParts dyadic
    by_cases hq : 0 ≤ q
    · obtain ⟨k, rfl⟩ := Int.eq_ofNat_of_zero_le hq
      have hwhole : ((m : ℚ) * 2 ^ (k : Int)) = ((m * 2 ^ k : Nat) : ℚ) := by
        push_cast
        rw [zpow_natCast]
      simp only [Bool.false_eq_true, if_false, if_pos hq, hwhole, Int.floor_natCast]
      rfl
    · obtain ⟨k, rfl⟩ : ∃ k : Nat, q = -k := ⟨q.natAbs, by omega⟩
      have hquotient : ((m : ℚ) * 2 ^ (-(k : Int))) = ((m : Int) : ℚ) / ((2 ^ k : Nat) : ℚ) := by
        rw [zpow_neg, zpow_natCast]
        push_cast
        rfl
      simp only [Bool.false_eq_true, if_false, if_neg hq, hquotient, Rat.floor_intCast_div_natCast]
      simp

/-- The number that the parts of a floating-point number denote, if it is a finite one. -/
def Binary64.number? : Binary64 → Option ℚ
  | .finite negative m q => some (dyadic negative m q)
  | .nan | .infinite _ => none

end Number

/-- The number that a value is, exactly. -/
def Value.number? : Value → Option ℚ
  | .bool b => some (if b then 1 else 0)
  | .int i => some i
  | .float x => (Number.Binary64.ofFloat x).number?
  | _ => none

/-- The percentage that a notice reports, if it reports one. -/
def Notice.percent? (n : Notice) : Option ℚ :=
  if n.kind = .progress then n.args.head?.bind Value.number? else none

namespace Console

theorem wholePercent_eq {v : Value} {x : ℚ} (hv : v.number? = some x) (hx : 0 ≤ x) :
    wholePercent v = .ok ⌊x⌋ := by
  cases v with
  | bool b => cases b <;> cases hv <;> simp [wholePercent]
  | int i =>
    cases hv
    simp [wholePercent]
  | float y =>
    simp only [Value.number?] at hv
    simp only [wholePercent]
    cases hy : Number.Binary64.ofFloat y with
    | finite negative m q =>
      rw [hy] at hv
      cases hv
      exact congrArg Except.ok (Number.truncateParts_eq_floor hx)
    | _ =>
      rw [hy] at hv
      cases hv
  | _ => cases hv

/-! ## Tenths -/

theorem tenth_eq (p : Int) : tenth p = p / 10 :=
  Int.fdiv_eq_ediv_of_nonneg p (by omega)

theorem tenth_eq_iff {p d : Int} : tenth p = d ↔ 10 * d ≤ p ∧ p ≤ 10 * d + 9 := by
  rw [tenth_eq]
  omega

theorem tenth_mono {p p' : Int} (h : p ≤ p') : tenth p ≤ tenth p' := by
  rw [tenth_eq, tenth_eq]
  omega

/-- The percentages that are printed, each compared with the one before it. -/
def entering (last : Int) : List Int → List Int
  | [] => []
  | p :: ps =>
    if tenth p ≠ tenth last ∧ 0 < p then p :: entering p ps else entering p ps

theorem entering_sublist (last : Int) (ps : List Int) : (entering last ps).Sublist ps := by
  induction ps generalizing last with
  | nil => exact List.Sublist.refl []
  | cons p ps ih =>
    rw [entering]
    split
    · exact (ih p).cons_cons p
    · exact (ih p).cons p

/-- Of percentages that never fall, those that are printed are in later tenths than the one before. -/
theorem tenth_lt_of_mem_entering {last q : Int} {ps : List Int}
    (hsorted : (last :: ps).Pairwise (· ≤ ·)) (hq : q ∈ entering last ps) : tenth last < tenth q := by
  induction ps generalizing last with
  | nil => cases hq
  | cons p ps ih =>
    obtain ⟨hlast, hrest⟩ := List.pairwise_cons.mp hsorted
    have hle : tenth last ≤ tenth p := tenth_mono (hlast p List.mem_cons_self)
    rw [entering] at hq
    split at hq
    · next hprinted =>
      rcases List.mem_cons.mp hq with rfl | hq
      · exact lt_of_le_of_ne hle hprinted.1.symm
      · exact lt_of_le_of_lt hle (ih hrest hq)
    · exact lt_of_le_of_lt hle (ih hrest hq)

theorem entering_increasing {last : Int} {ps : List Int} (hsorted : (last :: ps).Pairwise (· ≤ ·)) :
    (entering last ps).Pairwise (tenth · < tenth ·) := by
  induction ps generalizing last with
  | nil => exact List.Pairwise.nil
  | cons p ps ih =>
    have hrest := (List.pairwise_cons.mp hsorted).2
    rw [entering]
    split
    · exact List.pairwise_cons.mpr ⟨fun q hq => tenth_lt_of_mem_entering hrest hq, ih hrest⟩
    · exact ih hrest

/-- Of percentages that never fall, the first one in a tenth that was not reached before is printed if it
is above zero, and no other one in it. -/
theorem entering_filter {last d : Int} {ps : List Int} (hsorted : (last :: ps).Pairwise (· ≤ ·))
    (hd : tenth last < d) :
    (entering last ps).filter (tenth · = d) =
      ((ps.find? (tenth · = d)).filter (0 < ·)).toList := by
  induction ps generalizing last with
  | nil => rfl
  | cons p ps ih =>
    have hrest := (List.pairwise_cons.mp hsorted).2
    -- Nothing more is printed for a tenth that `p` is in or beyond.
    have hreached (hle : d ≤ tenth p) : (entering p ps).filter (tenth · = d) = [] := by
      rw [List.filter_eq_nil_iff]
      intro q hq
      have := tenth_lt_of_mem_entering hrest hq
      simp only [decide_eq_true_eq]
      omega
    by_cases hp : tenth p = d
    · have hnew : tenth p ≠ tenth last := by omega
      rw [entering, List.find?_cons_of_pos (by simpa using hp)]
      by_cases hpos : 0 < p
      · rw [if_pos ⟨hnew, hpos⟩, List.filter_cons_of_pos (by simpa using hp), hreached (by omega)]
        simp [Option.filter, hpos]
      · rw [if_neg fun h => hpos h.2, hreached (by omega)]
        simp [Option.filter, hpos]
    · have hskip : (entering last (p :: ps)).filter (tenth · = d) =
          (entering p ps).filter (tenth · = d) := by
        rw [entering]
        split
        · exact List.filter_cons_of_neg (by simpa using hp)
        · rfl
      rw [hskip, List.find?_cons_of_neg (by simpa using hp)]
      by_cases hbelow : tenth p < d
      · exact ih hrest hbelow
      · have hnone : ps.find? (tenth · = d) = none := by
          rw [List.find?_eq_none]
          intro q hq
          have := tenth_mono ((List.pairwise_cons.mp hrest).1 q hq)
          simp only [decide_eq_true_eq]
          omega
        rw [hreached (by omega), hnone]
        rfl

/-- Each tenth from the second one on gets a line for the first percentage in it. -/
theorem entering_tenth {d : Int} {ps : List Int} (hsorted : ((-1) :: ps).Pairwise (· ≤ ·))
    (hd : 1 ≤ d) :
    (entering (-1) ps).filter (tenth · = d) = (ps.find? (tenth · = d)).toList := by
  rw [entering_filter hsorted (by rw [tenth_eq]; omega)]
  cases hfind : ps.find? (tenth · = d) with
  | none => rfl
  | some p =>
    have hp : tenth p = d := by simpa using List.find?_some hfind
    have hpos : 0 < p := by
      rw [tenth_eq_iff] at hp
      omega
    simp [Option.filter, hpos]

/-- The first tenth gets a line if the first percentage in it is above zero. -/
theorem entering_below_ten {ps : List Int} (hsorted : ((-1) :: ps).Pairwise (· ≤ ·))
    (hnonneg : ∀ p ∈ ps, 0 ≤ p) :
    (entering (-1) ps).filter (· < 10) = ((ps.find? (· < 10)).filter (0 < ·)).toList := by
  have hfirst : ∀ p ∈ ps, p < 10 ↔ tenth p = 0 := by
    intro p hp
    have := hnonneg p hp
    rw [tenth_eq_iff]
    omega
  have hlines : (entering (-1) ps).filter (· < 10) = (entering (-1) ps).filter (tenth · = 0) := by
    refine List.filter_congr fun p hp => ?_
    simp [hfirst p ((entering_sublist _ _).mem hp)]
  have hfind : ps.find? (· < 10) = ps.find? (tenth · = 0) := by
    refine List.find?_congr fun p hp => ?_
    simp [hfirst p hp]
  rw [hlines, entering_filter hsorted (by decide), hfind]

/-- There are not more lines than tenths. -/
theorem entering_length_le {last : Int} {ps : List Int} (hsorted : (last :: ps).Pairwise (· ≤ ·))
    (hbounds : ∀ p ∈ ps, 0 ≤ p ∧ p ≤ 100) : (entering last ps).length ≤ 11 := by
  let tenths := (entering last ps).map tenth
  have hnodup : tenths.Nodup :=
    List.pairwise_map.mpr ((entering_increasing hsorted).imp fun hlt => ne_of_lt hlt)
  have hsubset : tenths.toFinset ⊆ Finset.Icc 0 10 := by
    intro d hd
    obtain ⟨p, hp, rfl⟩ := List.mem_map.mp (List.mem_toFinset.mp hd)
    obtain ⟨hlow, hhigh⟩ := hbounds p ((entering_sublist last ps).mem hp)
    rw [Finset.mem_Icc, tenth_eq]
    omega
  calc (entering last ps).length = tenths.length := (List.length_map tenth).symm
    _ = tenths.toFinset.card := (List.toFinset_card_of_nodup hnodup).symm
    _ ≤ (Finset.Icc (0 : Int) 10).card := Finset.card_le_card hsubset
    _ = 11 := rfl

/-! ## One notice -/

/-- The line for a percentage. -/
def percentLine (p : Int) : TerminalEvent :=
  .printed ("   " ++ toString p ++ "%")

/-- A percentage has few enough digits to be written. -/
theorem numeral_percent {p : Int} (hlow : 0 ≤ p) (hhigh : p ≤ 100) :
    Value.numeral p = .ok (toString p) := by
  have hdigits : 10 ^ 3 ≤ 10 ^ Text.mostDigits := Nat.pow_le_pow_right (by decide) (by decide)
  refine if_pos (Value.hasNumeral_iff.mpr (Nat.lt_of_lt_of_le ?_ hdigits))
  omega

theorem showProgress_apply {p : Int} (hlow : 0 ≤ p) (hhigh : p ≤ 100) (budget : Nat)
    (t : Terminal) : showProgress p budget t =
    ⟨.returned (), (entering t.lastPercent [p]).map percentLine, { t with lastPercent := p }⟩ := by
  have hshow : showProgress p budget t =
      (if tenth p != tenth t.lastPercent && 0 < p then
        print ("   " ++ toString p ++ "%") >>= fun _ => remember p
      else remember p) budget t := by
    unfold showProgress
    rw [numeral_percent hlow hhigh]
    rfl
  rw [hshow, entering]
  by_cases hprinted : tenth p ≠ tenth t.lastPercent ∧ 0 < p
  · rw [if_pos hprinted, if_pos (by simpa using hprinted)]
    rfl
  · rw [if_neg hprinted, if_neg (by simpa using hprinted)]
    rfl

theorem notify_progress {n : Notice} {x : ℚ} (hn : n.percent? = some x) (hx : 0 ≤ x) (budget : Nat)
    (t : Terminal) : notify n budget t = showProgress ⌊x⌋ budget t := by
  obtain ⟨kind, args⟩ := n
  unfold Notice.percent? at hn
  split at hn
  · next hkind =>
    cases hkind
    cases args with
    | nil => cases hn
    | cons v rest =>
      have hshow : notify ⟨.progress, v :: rest⟩ budget t =
          ((liftM (wholePercent v) : Dialogue Int) >>= showProgress) budget t := rfl
      rw [hshow, wholePercent_eq hn hx]
      rfl
  · cases hn

/-- What is neither a headline nor a percentage leaves the percentage that is remembered. -/
theorem notify_other {n : Notice} (hstatus : n.kind ≠ .status) (hprogress : n.kind ≠ .progress)
    (budget : Nat) (t : Terminal) : (notify n budget t).world = t := by
  obtain ⟨kind, args⟩ := n
  cases kind with
  | status => exact absurd rfl hstatus
  | progress => exact absurd rfl hprogress
  | under | deviceUnsupported =>
    cases args with
    | nil => rfl
    | cons v rest => cases hv : v.shown <;> simp only [notify, subject, Run.ofFallible_ok_bind, hv] <;> rfl
  | working | speed | done | noNetwork => rfl

/-! ## Sequences of notices -/

/-- What notices do at a terminal, one after another. One that cannot be shown does not keep those after
it from being shown. -/
def showAll (budget : Nat) (t : Terminal) :
    List Notice → List (Notice × Trail TerminalEvent Terminal Unit)
  | [] => []
  | n :: notices =>
    let trail := notify n budget t
    (n, trail) :: showAll budget trail.world notices

/-- What is printed of the percentages among some notices. -/
def progressEvents (shown : List (Notice × Trail TerminalEvent Terminal Unit)) : List TerminalEvent :=
  shown.flatMap fun (n, trail) => if n.kind = .progress then trail.events else []

/-- The whole parts of the percentages that some notices report. -/
def wholes (notices : List Notice) : List Int :=
  (notices.filterMap Notice.percent?).map Int.floor

/-- Every percentage among some notices is a number from 0 to 100. -/
def Measured (notices : List Notice) : Prop :=
  ∀ n ∈ notices, n.kind = .progress → ∃ x, n.percent? = some x ∧ 0 ≤ x ∧ x ≤ 100

theorem kind_of_percent? {n : Notice} {x : ℚ} (h : n.percent? = some x) : n.kind = .progress := by
  by_contra hkind
  rw [Notice.percent?, if_neg hkind] at h
  cases h

theorem Measured.bounds {notices : List Notice} (h : Measured notices) :
    ∀ p ∈ wholes notices, 0 ≤ p ∧ p ≤ 100 := by
  intro p hp
  obtain ⟨x, hx, rfl⟩ := List.mem_map.mp hp
  obtain ⟨n, hn, hpercent⟩ := List.mem_filterMap.mp hx
  obtain ⟨y, hy, hlow, hhigh⟩ := h n hn (kind_of_percent? hpercent)
  obtain rfl : y = x := Option.some.inj (hy.symm.trans hpercent)
  exact ⟨Int.floor_nonneg.mpr hlow, Int.floor_le_iff.mpr (by push_cast; linarith)⟩

theorem wholes_sorted {notices : List Notice}
    (h : (notices.filterMap Notice.percent?).Pairwise (· ≤ ·)) :
    (wholes notices).Pairwise (· ≤ ·) :=
  List.pairwise_map.mpr (h.imp fun hle => Int.floor_mono hle)

theorem entering_cons (last p : Int) (ps : List Int) :
    entering last (p :: ps) = entering last [p] ++ entering p ps := by
  rw [entering, entering]
  split <;> rfl

/-- What is printed of percentages depends on their whole parts and on the one that is remembered; none
of them makes the shell fail. -/
theorem showAll_progress {notices : List Notice} (hstatus : ∀ n ∈ notices, n.kind ≠ .status)
    (hmeasured : Measured notices) (budget : Nat) (t : Terminal) :
    progressEvents (showAll budget t notices) =
        (entering t.lastPercent (wholes notices)).map percentLine ∧
      ∀ s ∈ showAll budget t notices, s.1.kind = .progress → s.2.ending = .returned () := by
  induction notices generalizing t with
  | nil => exact ⟨rfl, by simp [showAll]⟩
  | cons n notices ih =>
    obtain ⟨hn, hstatus⟩ := List.forall_mem_cons.mp hstatus
    obtain ⟨hpercent, hmeasured⟩ := List.forall_mem_cons.mp hmeasured
    have ih := ih hstatus hmeasured
    by_cases hkind : n.kind = .progress
    · obtain ⟨x, hx, hlow, hhigh⟩ := hpercent hkind
      have hwhole : ⌊x⌋ ≤ 100 := Int.floor_le_iff.mpr (by push_cast; linarith)
      have hnotify := (notify_progress hx hlow budget t).trans
        (showProgress_apply (Int.floor_nonneg.mpr hlow) hwhole budget t)
      obtain ⟨hevents, hreturned⟩ := ih (notify n budget t).world
      rw [hnotify] at hevents hreturned
      have hwholes : wholes (n :: notices) = ⌊x⌋ :: wholes notices := by
        simp [wholes, hx]
      constructor
      · rw [hwholes, entering_cons, List.map_append, ← hevents]
        simp [showAll, progressEvents, hkind, hnotify]
      · rw [showAll, List.forall_mem_cons, hnotify]
        exact ⟨fun _ => rfl, hreturned⟩
    · have hworld := notify_other hn hkind budget t
      obtain ⟨hevents, hreturned⟩ := ih t
      have hnone : n.percent? = none := if_neg hkind
      have hwholes : wholes (n :: notices) = wholes notices := by
        simp [wholes, hnone]
      constructor
      · rw [hwholes, ← hevents]
        simp [showAll, progressEvents, hkind, hworld]
      · rw [showAll, List.forall_mem_cons, hworld]
        exact ⟨fun hprogress => absurd hprogress hkind, hreturned⟩

/-- Once a headline is printed, of percentages that never fall the shell prints the first one in each
tenth, by its whole part. Those below ten are a tenth of their own, which gets no line if it is entered at
zero. There are eleven lines at most, whatever else is shown in between. -/
theorem progress_once_per_tenth (budget : Nat) (t : Terminal) (headline : Value)
    (hheadline : headline.writable = true) (args : List Value) (notices : List Notice)
    (hstatus : ∀ n ∈ notices, n.kind ≠ .status) (hmeasured : Measured notices)
    (hsorted : (notices.filterMap Notice.percent?).Pairwise (· ≤ ·)) :
    let shown := showAll budget t (⟨.status, headline :: args⟩ :: notices)
    (∀ s ∈ shown, s.1.kind = .progress → s.2.ending = .returned ()) ∧
      ∃ lines : List Int, progressEvents shown = lines.map percentLine ∧
        (∀ d, 1 ≤ d → d ≤ 10 →
          (lines.filter fun p => 10 * d ≤ p ∧ p ≤ 10 * d + 9) =
            ((wholes notices).find? fun p => 10 * d ≤ p ∧ p ≤ 10 * d + 9).toList) ∧
        (lines.filter (· < 10) = (((wholes notices).find? (· < 10)).filter (0 < ·)).toList ∧
          (lines.filter (· < 10)).length ≤ 1) ∧
        lines.length ≤ 11 := by
  intro shown
  have hbounds := hmeasured.bounds
  have hfirst : ((-1) :: wholes notices).Pairwise (· ≤ ·) := by
    refine List.pairwise_cons.mpr ⟨fun p hp => ?_, wholes_sorted hsorted⟩
    have := hbounds p hp
    omega
  have hbelow := entering_below_ten hfirst fun p hp => (hbounds p hp).1
  -- The headline leaves a percentage that is in no tenth of those to come.
  have hshown : shown = (⟨.status, headline :: args⟩, notify ⟨.status, headline :: args⟩ budget t) ::
      showAll budget { t with lastPercent := -1 } notices := by
    have hworld : (notify ⟨.status, headline :: args⟩ budget t).world = { t with lastPercent := -1 } := by
      simp only [notify, subject, Run.ofFallible_ok_bind, Value.shown_of_writable hheadline]
      rfl
    exact congrArg (fun t => _ :: showAll budget t notices) hworld
  obtain ⟨hevents, hreturned⟩ := showAll_progress hstatus hmeasured budget { t with lastPercent := -1 }
  refine ⟨?_, entering (-1) (wholes notices), ?_, fun d hd _ => ?_, ⟨hbelow, ?_⟩, ?_⟩
  · rw [hshown, List.forall_mem_cons]
    exact ⟨fun h => NoticeKind.noConfusion h, hreturned⟩
  · rw [hshown]
    simpa [progressEvents] using hevents
  · simp only [← tenth_eq_iff]
    exact entering_tenth hfirst hd
  · rw [hbelow]
    cases ((wholes notices).find? (· < 10)).filter (0 < ·) <;> simp
  · exact entering_length_le hfirst hbounds

/-- Notices of a flashing device, at a terminal that has shown others before. -/
def flashing : List Notice :=
  [.progress (.int 5), .under "5%", .progress (.float 12.5), .speed (.float 0.5), ⟨.under, []⟩,
    .progress (.int 14), .progress (.int 100)]

theorem flashing_printed_once :
    ∃ lines : List Int,
      progressEvents (showAll 0 { lastPercent := 57 } (.status "Flashing" (some true) :: flashing)) =
          lines.map percentLine ∧
        (lines.filter fun p => 10 * 1 ≤ p ∧ p ≤ 10 * 1 + 9) = [12] ∧
        (lines.filter fun p => 10 * 10 ≤ p ∧ p ≤ 10 * 10 + 9) = [100] ∧
        lines.filter (· < 10) = [5] ∧ lines.length ≤ 11 := by
  have hparts : Number.Binary64.ofFloat 12.5 = .finite false 7036874417766400 (-49) := by decide
  have hhalf : (Value.float 12.5).number? = some (25 / 2) := by
    rw [Value.number?, hparts]
    norm_num [Number.Binary64.number?, Number.dyadic]
  have hreports (v : Value) : (Notice.progress v).percent? = v.number? := rfl
  have hpercents : flashing.filterMap Notice.percent? = [5, 25 / 2, 14, 100] := by
    simp only [flashing, List.filterMap_cons, hreports, hhalf]
    rfl
  have hwholes : wholes flashing = [5, 12, 14, 100] := by
    rw [wholes, hpercents]
    norm_num
  have hmeasured : Measured flashing := by
    intro n hn hkind
    simp only [flashing, List.mem_cons, List.not_mem_nil, or_false] at hn
    rcases hn with rfl | rfl | rfl | rfl | rfl | rfl | rfl
    · exact ⟨5, rfl, by norm_num, by norm_num⟩
    · cases hkind
    · exact ⟨25 / 2, hhalf, by norm_num, by norm_num⟩
    · cases hkind
    · cases hkind
    · exact ⟨14, rfl, by norm_num, by norm_num⟩
    · exact ⟨100, rfl, by norm_num, by norm_num⟩
  obtain ⟨-, lines, hevents, htenths, ⟨hbelow, -⟩, hlength⟩ :=
    progress_once_per_tenth 0 { lastPercent := 57 } (.str "Flashing") rfl [.bool true] flashing
      (by decide) hmeasured (by rw [hpercents]; norm_num)
  rw [hwholes] at htenths hbelow
  exact ⟨lines, hevents, htenths 1 (by decide) (by decide), htenths 10 (by decide) (by decide), hbelow,
    hlength⟩

end Console

end Reflash
