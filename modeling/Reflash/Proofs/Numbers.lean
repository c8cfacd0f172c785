import Mathlib
import Reflash.Number.Binary64

set_option autoImplicit false

/-! # Equal numbers

Floating-point numbers are compared as such, and with whole numbers by the whole number that they
are. The two agree: numbers that are the same whole number are equal (`Number.beq_of_whole?`), and
equal numbers are the same whole number, if they are whole (`Number.whole?_congr`). -/

namespace Reflash.Number

/-! ## Whole numbers in binary -/

/-- The whole number that a floating-point number is, if it is one. -/
def whole? (x : Float) : Option Int :=
  match Binary64.ofFloat x with
  | .finite negative m q => wholePart? negative m q
  | _ => none

theorem isWhole_iff {x : Float} {i : Int} : isWhole x i = true ↔ whole? x = some i := by
  unfold isWhole whole?
  cases Binary64.ofFloat x <;> simp

/-- The parts of a number that is not too small are determined by it. -/
theorem parts_unique {a b f g : Nat} (hf : f < 2 ^ 52) (hg : g < 2 ^ 52)
    (h : (2 ^ 52 + f) * 2 ^ a = (2 ^ 52 + g) * 2 ^ b) : a = b ∧ f = g := by
  have wlog_le {a b f g : Nat} (hf : f < 2 ^ 52) (hab : a ≤ b)
      (h : (2 ^ 52 + f) * 2 ^ a = (2 ^ 52 + g) * 2 ^ b) : a = b ∧ f = g := by
    obtain ⟨d, rfl⟩ := Nat.exists_eq_add_of_le hab
    rw [Nat.pow_add, Nat.mul_comm (2 ^ a), ← Nat.mul_assoc] at h
    have hfg := Nat.eq_of_mul_eq_mul_right (Nat.two_pow_pos a) h
    rcases d with _ | d
    · exact ⟨rfl, by omega⟩
    · have hlarge : (2 ^ 52 + g) * 2 ≤ (2 ^ 52 + g) * 2 ^ (d + 1) :=
        Nat.mul_le_mul_left _ (Nat.le_self_pow (Nat.succ_ne_zero d) 2)
      omega
  rcases Nat.le_total a b with hab | hba
  · exact wlog_le hf hab h
  · obtain ⟨hb, hg'⟩ := wlog_le hg hba h.symm
    exact ⟨hb.symm, hg'.symm⟩

/-- A whole number that parts denote has their sign and, scaled to the smallest unit, their size. -/
theorem wholePart?_eq_some {negative : Bool} {m k : Nat} {q i : Int} (unit : Nat)
    (hq : q + unit = k) (h : wholePart? negative m q = some i) :
    i.natAbs * 2 ^ unit = m * 2 ^ k ∧ (i ≠ 0 → (negative = true ↔ i < 0)) := by
  obtain ⟨z, hz, rfl⟩ := Option.map_eq_some_iff.mp h
  obtain ⟨n, hn, hzn⟩ := Option.bind_eq_some_iff.mp hz
  cases hzn
  have hsign : (if negative then -(n : Int) else n).natAbs = n := by
    cases negative <;> simp
  refine ⟨?_, fun hi => ?_⟩
  · rw [hsign]
    by_cases hnonneg : 0 ≤ q
    · rw [if_pos hnonneg] at hn
      cases hn
      have hk : k = q.toNat + unit := by omega
      rw [hk, Nat.pow_add, ← Nat.mul_assoc]
      rfl
    · rw [if_neg hnonneg] at hn
      split at hn
      · next hdvd =>
        cases hn
        have hunit : unit = q.natAbs + k := by omega
        have hmul : m / 2 ^ q.natAbs * 2 ^ q.natAbs = m :=
          Nat.div_mul_cancel (Nat.dvd_of_mod_eq_zero (by simpa using hdvd))
        rw [hunit, Nat.pow_add, ← Nat.mul_assoc]
        exact congrArg (· * 2 ^ k) hmul
      · cases hn
  · cases negative
    · simp
    · change -(n : Int) ≠ 0 at hi
      have hneg : -(n : Int) < 0 := by omega
      exact iff_of_true rfl hneg

theorem wholePart?_zero (negative : Bool) (q : Int) : wholePart? negative 0 q = some 0 := by
  unfold wholePart?
  simp only [Nat.zero_mul, Nat.zero_mod, Nat.zero_div, beq_self_eq_true, if_true, ite_self]
  cases negative <;> rfl

/-- The biased exponent of a number, as its bits have it. -/
def exponentOf (x : Float) : Nat := x.toBits.toNat / 2 ^ 52 % 2 ^ 11

/-- The fraction of a number, as its bits have it. -/
def fractionOf (x : Float) : Nat := x.toBits.toNat % 2 ^ 52

/-- The sign of a number, as its bits have it. -/
def signOf (x : Float) : Nat := x.toBits.toNat / 2 ^ 63

theorem toNat_toBits (x : Float) :
    x.toBits.toNat = signOf x * 2 ^ 63 + exponentOf x * 2 ^ 52 + fractionOf x := by
  unfold signOf exponentOf fractionOf
  omega

theorem signOf_lt (x : Float) : signOf x < 2 := by
  have := x.toBits.toNat_lt
  unfold signOf
  omega

/-- The size of a number, in the smallest unit. -/
def units (x : Float) : Nat :=
  if exponentOf x = 0 then fractionOf x else (2 ^ 52 + fractionOf x) * 2 ^ (exponentOf x - 1)

theorem ofFloat_eq (x : Float) : Binary64.ofFloat x =
    if exponentOf x == 2047 then
      if fractionOf x == 0 then .infinite (signOf x == 1) else .nan
    else if exponentOf x == 0 then .finite (signOf x == 1) (fractionOf x) (-1074)
    else .finite (signOf x == 1) (2 ^ 52 + fractionOf x) (exponentOf x - 1075) := rfl

theorem ofFloat_finite {x : Float} {negative : Bool} {m : Nat} {q : Int}
    (h : Binary64.ofFloat x = .finite negative m q) :
    (negative = true ↔ signOf x = 1) ∧
      ∃ k : Nat, q + (1074 : Nat) = k ∧ units x = m * 2 ^ k := by
  rw [ofFloat_eq] at h
  split at h
  · split at h <;> cases h
  split at h
  · next hzero =>
    cases h
    refine ⟨by simp, 0, rfl, ?_⟩
    rw [units, if_pos (by simpa using hzero), Nat.pow_zero, Nat.mul_one]
  · next hzero =>
    cases h
    have hne : exponentOf x ≠ 0 := by simpa using hzero
    refine ⟨by simp, exponentOf x - 1, by omega, ?_⟩
    rw [units, if_neg hne]

theorem whole?_eq_some {x : Float} {i : Int} (h : whole? x = some i) :
    i.natAbs * 2 ^ 1074 = units x ∧ (i ≠ 0 → (signOf x = 1 ↔ i < 0)) := by
  unfold whole? at h
  split at h
  · next hfinite =>
    obtain ⟨hsign, k, hk, hunits⟩ := ofFloat_finite hfinite
    obtain ⟨hsize, hnegative⟩ := wholePart?_eq_some 1074 hk h
    exact ⟨hsize.trans hunits.symm, fun hi => hsign.symm.trans (hnegative hi)⟩
  · cases h

/-- The size of a number determines its exponent and its fraction. -/
theorem units_inj {x y : Float} (h : units x = units y) :
    exponentOf x = exponentOf y ∧ fractionOf x = fractionOf y := by
  have hfraction (z : Float) : fractionOf z < 2 ^ 52 := Nat.mod_lt _ (Nat.two_pow_pos 52)
  have hnormal (z : Float) (k : Nat) : 2 ^ 52 ≤ (2 ^ 52 + fractionOf z) * 2 ^ k :=
    Nat.le_trans (Nat.le_add_right _ _) (Nat.le_mul_of_pos_right _ (Nat.two_pow_pos k))
  have hx := hfraction x
  have hy := hfraction y
  unfold units at h
  split at h <;> split at h
  · next hex hey => exact ⟨hex.trans hey.symm, h⟩
  · have := hnormal y (exponentOf y - 1)
    omega
  · have := hnormal x (exponentOf x - 1)
    omega
  · obtain ⟨hexponent, hfraction⟩ := parts_unique hx hy h
    exact ⟨by omega, hfraction⟩

/-! ## Equal numbers -/

open Float.Model Float.Model.UnpackedFloat

theorem toBits_inj {x y : Float} (h : x.toBits = y.toBits) : x = y := by
  obtain ⟨⟨_, _⟩⟩ := x
  obtain ⟨⟨_, _⟩⟩ := y
  cases h
  rfl

/-- The parts of a number, as the arithmetic of the machine has them. -/
def ofUnpacked : UnpackedFloat → Binary64
  | .notANumber => .nan
  | .infinity sign => .infinite (sign == .negative)
  | .zero sign => .finite (sign == .negative) 0 (-1074)
  | .finite sign m q _ => .finite (sign == .negative) m q

theorem ofFloat_eq_ofUnpacked (x : Float) : Binary64.ofFloat x = ofUnpacked x.toModel.unpack := by
  have hbits : x.toModel.toBits.toBitVec.toNat = x.toBits.toNat := rfl
  have hexponent : (@unpackExponent .binary64 x.toModel.toBits.toBitVec).toNat = exponentOf x := by
    simp [unpackExponent, exponentOf, Nat.shiftRight_eq_div_pow, hbits]
  have hfraction : (@unpackMantissa .binary64 x.toModel.toBits.toBitVec).toNat = fractionOf x := by
    simp [unpackMantissa, fractionOf, hbits]
  have hsign : (Sign.ofBitVec (@unpackSign .binary64 x.toModel.toBits.toBitVec) == .negative) =
      (signOf x == 1) := by
    have hlt := signOf_lt x
    have hbit : (@unpackSign .binary64 x.toModel.toBits.toBitVec).toNat = signOf x := by
      simpa [unpackSign, signOf, Nat.shiftRight_eq_div_pow, hbits] using hlt
    rw [← hbit]
    generalize @unpackSign .binary64 x.toModel.toBits.toBitVec = bit
    revert bit
    decide
  have hmax : (-1#11).toNat = 2047 := rfl
  have hnone (n : Nat) : (0#n).toNat = 0 := BitVec.toNat_zero
  have hbias : Format.binary64.exponentBias = 1023 := rfl
  have hnormal : (1#1 ++ @unpackMantissa .binary64 x.toModel.toBits.toBitVec).toNat =
      2 ^ 52 + fractionOf x := by
    have hlt : fractionOf x < 2 ^ 52 := Nat.mod_lt _ (Nat.two_pow_pos 52)
    rw [BitVec.toNat_append, hfraction]
    exact (Nat.shiftLeft_add_eq_or_of_lt hlt 1).symm
  rw [ofFloat_eq]
  unfold Float.Model.unpack UnpackedFloat.unpack
  simp only [← BitVec.toNat_inj, hexponent, hfraction, hmax, hnone, hbias, beq_iff_eq]
  -- The exponent tells infinite numbers, those near to zero, and all other ones apart.
  split
  · split <;> simp [ofUnpacked, hsign]
  split
  · next hzero =>
    by_cases hfractionZero : fractionOf x = 0
    · rw [dif_pos hfractionZero, ofUnpacked, hsign, hfractionZero]
    · rw [dif_neg hfractionZero, ofUnpacked, hsign, hzero]
      rfl
  · rw [ofUnpacked, hsign, hnormal]
    rfl

/-- Numbers are equal if they have the same parts, and are numbers, or are two zeros. -/
theorem beq_iff {x y : Float} : (x == y) = true ↔
    x.toModel.unpack ≠ .notANumber ∧ x.toModel.unpack = y.toModel.unpack ∨
      ∃ s s', x.toModel.unpack = .zero s ∧ y.toModel.unpack = .zero s' := by
  have hcompare : (x == y) = (x.toModel.unpack.compare y.toModel.unpack == some .eq) := rfl
  rw [hcompare]
  rcases x.toModel.unpack with (_ | _) | _ | (_ | _) | ⟨_ | _, m, q, _⟩ <;>
    rcases y.toModel.unpack with (_ | _) | _ | (_ | _) | ⟨_ | _, m', q', _⟩ <;>
      simp [UnpackedFloat.compare, Ordering.then_eq_eq, and_comm]
  · rfl
  · rfl

theorem beq_symm {x y : Float} (h : (x == y) = true) : (y == x) = true := by
  rcases beq_iff.mp h with ⟨hx, hxy⟩ | ⟨s, s', hx, hy⟩
  · exact beq_iff.mpr (.inl ⟨hxy ▸ hx, hxy.symm⟩)
  · exact beq_iff.mpr (.inr ⟨s', s, hy, hx⟩)

theorem beq_trans {x y z : Float} (h : (x == y) = true) (h' : (y == z) = true) :
    (x == z) = true := by
  rcases beq_iff.mp h with ⟨hx, hxy⟩ | ⟨s, s', hx, hy⟩
  · rcases beq_iff.mp h' with ⟨-, hyz⟩ | ⟨t, t', hy, hz⟩
    · exact beq_iff.mpr (.inl ⟨hx, hxy.trans hyz⟩)
    · exact beq_iff.mpr (.inr ⟨t, t', hxy.trans hy, hz⟩)
  · rcases beq_iff.mp h' with ⟨-, hyz⟩ | ⟨t, t', -, hz⟩
    · exact beq_iff.mpr (.inr ⟨s, s', hx, hyz.symm.trans hy⟩)
    · exact beq_iff.mpr (.inr ⟨s, t', hx, hz⟩)

theorem zero_of_whole? {x : Float} (h : whole? x = some 0) : ∃ s, x.toModel.unpack = .zero s := by
  rw [whole?, ofFloat_eq_ofUnpacked] at h
  cases hx : x.toModel.unpack with
  | zero s => exact ⟨s, rfl⟩
  | finite s m q hm =>
    rw [hx] at h
    have hq : q + (q.natAbs : Nat) = ((q + q.natAbs).toNat : Nat) := by omega
    have hsize := (wholePart?_eq_some q.natAbs hq h).1
    rw [Int.natAbs_zero, Nat.zero_mul] at hsize
    have hpos := Nat.mul_pos hm (Nat.two_pow_pos (q + q.natAbs).toNat)
    omega
  | _ =>
    rw [hx] at h
    cases h

/-- Numbers that are the same whole number are equal. -/
theorem beq_of_whole? {x y : Float} {i : Int} (hx : whole? x = some i) (hy : whole? y = some i) :
    (x == y) = true := by
  by_cases hi : i = 0
  · subst hi
    obtain ⟨s, hs⟩ := zero_of_whole? hx
    obtain ⟨s', hs'⟩ := zero_of_whole? hy
    exact beq_iff.mpr (.inr ⟨s, s', hs, hs'⟩)
  · obtain ⟨hxsize, hxsign⟩ := whole?_eq_some hx
    obtain ⟨hysize, hysign⟩ := whole?_eq_some hy
    obtain ⟨hexponent, hfraction⟩ := units_inj (hxsize.symm.trans hysize)
    have hsign := (hxsign hi).trans (hysign hi).symm
    have hxlt := signOf_lt x
    have hylt := signOf_lt y
    have hsame : signOf x = signOf y := by omega
    have hbits : x.toBits = y.toBits := UInt64.toNat_inj.mp (by
      rw [toNat_toBits x, toNat_toBits y, hexponent, hfraction, hsame])
    refine beq_iff.mpr (.inl ⟨fun hnan => ?_, congrArg (·.toModel.unpack) (toBits_inj hbits)⟩)
    rw [whole?, ofFloat_eq_ofUnpacked, hnan] at hx
    cases hx

/-- Equal numbers are the same whole number, if they are whole. -/
theorem whole?_congr {x y : Float} (h : (x == y) = true) : whole? x = whole? y := by
  unfold whole?
  rw [ofFloat_eq_ofUnpacked, ofFloat_eq_ofUnpacked]
  rcases beq_iff.mp h with ⟨-, hxy⟩ | ⟨s, s', hx, hy⟩
  · rw [hxy]
  · rw [hx, hy]
    exact (wholePart?_zero _ _).trans (wholePart?_zero _ _).symm

end Reflash.Number
