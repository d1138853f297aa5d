import Mathlib

/-!
# Rounding to the nearest double

The model of doubles rounds a mantissa with an exponent and two residual bits.  What comes out
depends only on the number that they stand for.

* `shiftRight_quotient`, `quotient_of_ratio`: mantissas with residual bits are quotients;
* `roundWithAccuracy_eq`: a quotient and an exponent are rounded to `nearest` of their value;
* `nearest_of_canonical`: a double stays as it is;
* `nearest_of_tiny`, `nearest_of_huge`: numbers too small and too large for a double.
-/

namespace GrowthEstimate.Rounding

open Float.Model Float.Model.UnpackedFloat

/-! ## Quotients with residual bits -/

/-- The quotient of two natural numbers, with the two bits that say how it is to be rounded. -/
def quotient (a b : Nat) : ExtendedMantissa where
  mantissa := a / b
  roundBit := decide (b ≤ 2 * (a % b))
  stickyBit := decide (2 * (a % b) % b ≠ 0)

theorem quotient_one (m : Nat) : quotient m 1 = ⟨m, false, false⟩ := by
  simp [quotient, Nat.mod_one]

theorem ofMantissaAndAccuracy_ofFraction {b : Nat} (hb : 0 < b) (a : Nat) :
    ExtendedMantissa.ofMantissaAndAccuracy (a / b) (accuracyOfFraction (a % b) b)
      = quotient a b := by
  have hlt : a % b < b := Nat.mod_lt _ hb
  have hmod : b ≤ 2 * (a % b) → 2 * (a % b) % b = 2 * (a % b) - b := fun h => by
    rw [Nat.mod_eq_sub_mod h, Nat.mod_eq_of_lt (by omega)]
  rw [accuracyOfFraction]
  split
  · next hzero => simp [ExtendedMantissa.ofMantissaAndAccuracy, quotient, hzero]; omega
  · next hzero =>
    rcases Nat.lt_trichotomy (2 * (a % b)) b with h | h | h
    · have hcompare : compare (2 * (a % b)) b = .lt := Nat.compare_eq_lt.2 h
      simp [ExtendedMantissa.ofMantissaAndAccuracy, quotient, hcompare, Nat.mod_eq_of_lt h]
      omega
    · have hcompare : compare (2 * (a % b)) b = .eq := Nat.compare_eq_eq.2 h
      simp [ExtendedMantissa.ofMantissaAndAccuracy, quotient, h]
    · have hcompare : compare (2 * (a % b)) b = .gt := Nat.compare_eq_gt.2 h
      simp [ExtendedMantissa.ofMantissaAndAccuracy, quotient, hcompare, hmod h.le]
      omega

theorem shiftRightOne_quotient {b : Nat} (hb : 0 < b) (a : Nat) :
    (quotient a b).shiftRightOne = quotient a (b * 2) := by
  have hlt : a % b < b := Nat.mod_lt _ hb
  have hmod : a % (b * 2) = a % b + b * (a / b % 2) := Nat.mod_mul
  have hround : (a / b % 2 ≠ 0) ↔ b * 2 ≤ 2 * (a % (b * 2)) := by
    rcases Nat.mod_two_eq_zero_or_one (a / b) with h | h
    · simp [hmod, h]
      omega
    · simp [hmod, h]
      omega
  have hsticky : (b ≤ 2 * (a % b) ∨ 2 * (a % b) % b ≠ 0) ↔ 2 * (a % (b * 2)) % (b * 2) ≠ 0 := by
    have hdouble : 2 * (a % (b * 2)) % (b * 2) = 2 * (a % b) := by
      rw [Nat.mul_comm b 2, Nat.mul_mod_mul_left, Nat.mul_comm 2 b, Nat.mod_mul_right_mod]
    rw [hdouble]
    rcases Nat.lt_or_ge (2 * (a % b)) b with h | h
    · rw [Nat.mod_eq_of_lt h]
      omega
    · omega
  simp only [ExtendedMantissa.shiftRightOne, quotient, Nat.div_div_eq_div_mul]
  congr 1
  · rw [Bool.eq_iff_iff, decide_eq_true_iff, ← hround, bne_iff_ne]
  · rw [Bool.eq_iff_iff, decide_eq_true_iff, ← hsticky, Bool.or_eq_true, decide_eq_true_iff,
      decide_eq_true_iff]

theorem shiftRight_quotient {b : Nat} (hb : 0 < b) (a n : Nat) :
    quotient a b >>> n = quotient a (b * 2 ^ n) := by
  induction n with
  | zero => rw [Nat.pow_zero, Nat.mul_one]; rfl
  | succ n ih =>
    have hstep : quotient a b >>> (n + 1) = (quotient a b >>> n).shiftRightOne := rfl
    have hpos : 0 < b * 2 ^ n := Nat.mul_pos hb (Nat.two_pow_pos n)
    rw [hstep, ih, shiftRightOne_quotient hpos, Nat.mul_assoc, Nat.pow_succ]

theorem quotient_mul_mul {k : Nat} (hk : 0 < k) (a b : Nat) :
    quotient (a * k) (b * k) = quotient a b := by
  have hle : b * k ≤ 2 * (a % b * k) ↔ b ≤ 2 * (a % b) := by
    rw [← Nat.mul_assoc]
    exact Nat.mul_le_mul_right_iff hk
  have hzero : 2 * (a % b) % b * k ≠ 0 ↔ 2 * (a % b) % b ≠ 0 := by
    simp [Nat.pos_iff_ne_zero.1 hk]
  simp only [quotient, Nat.mul_div_mul_right _ _ hk, Nat.mul_mod_mul_right, hle]
  rw [← Nat.mul_assoc, Nat.mul_mod_mul_right]
  simp only [hzero]

theorem quotient_eq_of_mul_eq {a b c d : Nat} (hb : 0 < b) (hd : 0 < d) (h : a * d = c * b) :
    quotient a b = quotient c d := by
  rw [← quotient_mul_mul hd a b, ← quotient_mul_mul hb c d, h, Nat.mul_comm b d]

/-- A quotient depends on the ratio alone. -/
theorem quotient_of_ratio {a b : Nat} {w : ℚ} (hb : 0 < b) (hw : (a : ℚ) / b = w) :
    quotient a b = quotient w.num.toNat w.den := by
  have hb' : (b : ℚ) ≠ 0 := Nat.cast_ne_zero.2 hb.ne'
  have hden : (w.den : ℚ) ≠ 0 := Nat.cast_ne_zero.2 w.den_pos.ne'
  have hnonneg : 0 ≤ w.num := by
    rw [Rat.num_nonneg, ← hw]
    exact div_nonneg (Nat.cast_nonneg a) (Nat.cast_nonneg b)
  have hnum : ((w.num.toNat : ℕ) : ℚ) = w.num := by exact_mod_cast Int.toNat_of_nonneg hnonneg
  apply quotient_eq_of_mul_eq hb w.den_pos
  have h : (a : ℚ) * w.den = w.num.toNat * b := by
    rw [hnum, ← div_eq_div_iff hb' hden, hw, Rat.num_div_den]
  exact_mod_cast h

/-! ## The nearest double -/

/-- The exponent of the last place of a double near a positive number. -/
def target (v : ℚ) : ℤ := max (Int.log 2 v - 52) (-1074)

/-- What is left of rounding once the mantissa stands at its exponent. -/
def finish (s : Sign) (em : ExtendedMantissa) (e : ℤ) : UnpackedFloat :=
  let shifted := shiftToTargetExponent Format.binary64 em.roundedMantissa e .exact
  if h : shifted.1.mantissa = 0 then .zero s
  else .finite s shifted.1.mantissa shifted.2 (Nat.pos_of_ne_zero h)

/-- A positive number rounded to the nearest double, the even one of two. -/
def nearest (s : Sign) (v : ℚ) : UnpackedFloat :=
  let steps := v / 2 ^ target v
  finish s (quotient steps.num.toNat steps.den) (target v)

theorem roundWithAccuracy_eq_finish (s : Sign) (m : Nat) (e : ℤ) (accuracy : Accuracy) :
    roundWithAccuracy Format.binary64 s m e accuracy =
      finish s (shiftToTargetExponent Format.binary64 m e accuracy).1
        (shiftToTargetExponent Format.binary64 m e accuracy).2 := rfl

theorem log_eq {v : ℚ} {k : ℤ} (hv : 0 < v) (hle : 2 ^ k ≤ v) (hlt : v < 2 ^ (k + 1)) :
    Int.log 2 v = k := by
  apply le_antisymm
  · exact Int.lt_add_one_iff.1
      ((Int.lt_zpow_iff_log_lt Nat.one_lt_two hv).1 (by exact_mod_cast hlt))
  · exact (Int.zpow_le_iff_le_log Nat.one_lt_two hv).1 (by exact_mod_cast hle)

theorem targetExponent_eq (t : ℤ) :
    Format.binary64.targetExponent t = max (t - 53) (-1074) := rfl

/-- The value of a quotient with an exponent decides where its last place will be. -/
theorem targetExponent_quotient {a b : Nat} {e : ℤ} {v : ℚ} (hb : 0 < b)
    (hv : (a : ℚ) / b * 2 ^ e = v) (hpos : 0 < v) (he : e ≤ target v) :
    Format.binary64.targetExponent (totalExponent (a / b) e) = target v := by
  have hb' : (0 : ℚ) < b := Nat.cast_pos.2 hb
  have hpow : (0 : ℚ) < 2 ^ e := zpow_pos two_pos e
  rw [targetExponent_eq, totalExponent]
  rcases Nat.eq_zero_or_pos (a / b) with hzero | hone
  · -- The quotient is below one, so the exponent is as small as it can be already.
    have hlt : v < 2 ^ e := by
      rw [← hv]
      have hab : a < b := (Nat.div_eq_zero_iff.1 hzero).resolve_left hb.ne'
      have hratio : (a : ℚ) / b < 1 := (div_lt_one hb').2 (Nat.cast_lt.2 hab)
      exact mul_lt_of_lt_one_left hpow hratio
    have hlog : Int.log 2 v < e :=
      (Int.lt_zpow_iff_log_lt Nat.one_lt_two hpos).1 (by exact_mod_cast hlt)
    rw [hzero, Nat.log2_zero]
    rw [target] at he ⊢
    omega
  · have hle : ((2 ^ (a / b).log2 : ℕ) : ℚ) ≤ (a : ℚ) / b := by
      rw [le_div_iff₀ hb']
      exact_mod_cast (Nat.le_div_iff_mul_le hb).1 (Nat.log2_self_le hone.ne')
    have hlt : (a : ℚ) / b < ((2 ^ ((a / b).log2 + 1) : ℕ) : ℚ) := by
      rw [div_lt_iff₀ hb']
      exact_mod_cast (Nat.div_lt_iff_lt_mul hb).1 Nat.lt_log2_self
    have hlog : Int.log 2 v = (a / b).log2 + e := by
      apply log_eq hpos
      · rw [← hv, zpow_add₀ two_ne_zero, zpow_natCast]
        exact mul_le_mul_of_nonneg_right (by exact_mod_cast hle) hpow.le
      · have hsum : ((a / b).log2 + e + 1 : ℤ) = ((a / b).log2 + 1 : ℕ) + e := by
          push_cast
          omega
        rw [← hv, hsum, zpow_add₀ two_ne_zero, zpow_natCast]
        exact mul_lt_mul_of_pos_right (by exact_mod_cast hlt) hpow
    rw [target, hlog]
    congr 1
    omega

/-- Rounding depends on the number alone, however a quotient and an exponent make it up. -/
theorem roundWithAccuracy_eq {a b : Nat} {e : ℤ} {v : ℚ} (s : Sign) (hb : 0 < b)
    (hv : (a : ℚ) / b * 2 ^ e = v) (hpos : 0 < v) (he : e ≤ target v) :
    roundWithAccuracy Format.binary64 s (a / b) e (accuracyOfFraction (a % b) b) = nearest s v := by
  have htarget := targetExponent_quotient hb hv hpos he
  have hshift : shiftToTargetExponent Format.binary64 (a / b) e (accuracyOfFraction (a % b) b)
      = (quotient (v / 2 ^ target v).num.toNat (v / 2 ^ target v).den, target v) := by
    rw [shiftToTargetExponent, htarget, shiftToExponent, ofMantissaAndAccuracy_ofFraction hb,
      shiftRight_quotient hb]
    have hsteps : (a : ℚ) / (b * 2 ^ (target v - e).toNat : ℕ) = v / 2 ^ target v := by
      have hexp : target v = (target v - e).toNat + e := by omega
      have hpow : (2 : ℚ) ^ target v = 2 ^ (target v - e).toNat * 2 ^ e := by
        conv_lhs => rw [hexp, zpow_add₀ two_ne_zero, zpow_natCast]
      have hne : (2 : ℚ) ^ e ≠ 0 := zpow_ne_zero e two_ne_zero
      rw [hpow, ← hv]
      push_cast
      field_simp
    rw [quotient_of_ratio (Nat.mul_pos hb (Nat.two_pow_pos _)) hsteps]
    congr 1
    omega
  rw [roundWithAccuracy_eq_finish, hshift, nearest]

theorem roundWithAccuracy_exact {m : Nat} {e : ℤ} {v : ℚ} (s : Sign) (hv : (m : ℚ) * 2 ^ e = v)
    (hpos : 0 < v) (he : e ≤ target v) :
    roundWithAccuracy Format.binary64 s m e .exact = nearest s v := by
  have h := roundWithAccuracy_eq (a := m) (b := 1) s Nat.one_pos (by simpa using hv) hpos he
  rwa [Nat.div_one, Nat.mod_one] at h

/-! ## Numbers that are doubles -/

/-- The mantissa and the exponent are those of a double, were its exponent not bounded above. -/
structure Canonical (m : Nat) (e : ℤ) : Prop where
  pos : 0 < m
  lt : m < 2 ^ 53
  least : -1074 ≤ e
  full : 2 ^ 52 ≤ m ∨ e = -1074

theorem log_mul_zpow {m : Nat} (hm : 0 < m) (e : ℤ) : Int.log 2 ((m : ℚ) * 2 ^ e) = m.log2 + e := by
  have hpow : (0 : ℚ) < 2 ^ e := zpow_pos two_pos e
  have hle : ((2 ^ m.log2 : ℕ) : ℚ) ≤ m := Nat.cast_le.2 (Nat.log2_self_le hm.ne')
  have hlt : (m : ℚ) < ((2 ^ (m.log2 + 1) : ℕ) : ℚ) := Nat.cast_lt.2 Nat.lt_log2_self
  apply log_eq (mul_pos (Nat.cast_pos.2 hm) hpow)
  · rw [zpow_add₀ two_ne_zero, zpow_natCast]
    exact mul_le_mul_of_nonneg_right (by exact_mod_cast hle) hpow.le
  · have hsum : (m.log2 + e + 1 : ℤ) = (m.log2 + 1 : ℕ) + e := by
      push_cast
      omega
    rw [hsum, zpow_add₀ two_ne_zero, zpow_natCast]
    exact mul_lt_mul_of_pos_right (by exact_mod_cast hlt) hpow

theorem Canonical.target_eq {m : Nat} {e : ℤ} (h : Canonical m e) :
    target ((m : ℚ) * 2 ^ e) = e := by
  have hlog : m.log2 < 53 := (Nat.log2_lt h.pos.ne').2 h.lt
  have hleast := h.least
  rw [target, log_mul_zpow h.pos]
  rcases h.full with hfull | hfull
  · have hlog' : 52 ≤ m.log2 := (Nat.le_log2 h.pos.ne').2 hfull
    omega
  · omega

/-- Rounding leaves a double as it is. -/
theorem nearest_of_canonical {m : Nat} {e : ℤ} (s : Sign) (h : Canonical m e) :
    nearest s ((m : ℚ) * 2 ^ e) = .finite s m e h.pos := by
  have hpos : (0 : ℚ) < (m : ℚ) * 2 ^ e := mul_pos (Nat.cast_pos.2 h.pos) (zpow_pos two_pos e)
  have htarget := targetExponent_quotient (a := m) (b := 1) (e := e) Nat.one_pos (by simp) hpos
    h.target_eq.ge
  rw [Nat.div_one, h.target_eq] at htarget
  have hshift : shiftToTargetExponent Format.binary64 m e .exact = (⟨m, false, false⟩, e) := by
    rw [shiftToTargetExponent, htarget, shiftToExponent, Int.sub_self]
    simp [ExtendedMantissa.ofMantissaAndAccuracy]
    rfl
  have hrounded : ExtendedMantissa.roundedMantissa ⟨m, false, false⟩ = m := rfl
  have hfinish : finish s ⟨m, false, false⟩ e = .finite s m e h.pos := by
    rw [finish]
    simp only [hrounded, hshift, h.pos.ne', ↓reduceDIte]
  rw [← roundWithAccuracy_exact s rfl hpos h.target_eq.ge, roundWithAccuracy_eq_finish, hshift,
    hfinish]

/-! ## Numbers that are none -/

/-- The mantissa and the exponent once they are shifted, when the exponent is no subnormal one. -/
theorem shiftToTargetExponent_exact (m : Nat) (e : ℤ) :
    shiftToTargetExponent Format.binary64 m e .exact =
      (quotient m (2 ^ (max (m.log2 - 52 : ℤ) (-1074 - e)).toNat),
        e + (max (m.log2 - 52 : ℤ) (-1074 - e)).toNat) := by
  have hshift : (Format.binary64.targetExponent (totalExponent m e) - e).toNat =
      (max (m.log2 - 52 : ℤ) (-1074 - e)).toNat := by
    rw [targetExponent_eq, totalExponent]
    congr 1
    omega
  have hmantissa : ExtendedMantissa.ofMantissaAndAccuracy m .exact = quotient m 1 := by
    rw [quotient_one]
    rfl
  rw [shiftToTargetExponent, shiftToExponent, hshift, hmantissa, shiftRight_quotient Nat.one_pos,
    Nat.one_mul]

theorem roundedMantissa_of_two_mul_lt {a b : Nat} (h : 2 * a < b) :
    (quotient a b).roundedMantissa = 0 := by
  have hmod : a % b = a := Nat.mod_eq_of_lt (by omega)
  have hquotient : quotient a b = ⟨0, false, decide (2 * a % b ≠ 0)⟩ := by
    have hdiv : a / b = 0 := Nat.div_eq_of_lt (by omega)
    have hround : ¬ b ≤ 2 * a := by omega
    simp only [quotient, hmod, hdiv, hround, decide_false]
  rw [hquotient]
  cases decide (2 * a % b ≠ 0) <;> rfl

theorem mantissa_le_roundedMantissa (em : ExtendedMantissa) : em.mantissa ≤ em.roundedMantissa := by
  obtain ⟨m, _ | _, _ | _⟩ := em
  · exact le_rfl
  · exact le_rfl
  · exact Nat.le_add_right _ _
  · exact Nat.le_add_right _ _

theorem two_mul_num_lt_den {w : ℚ} (hpos : 0 < w) (h : 2 * w < 1) : 2 * w.num.toNat < w.den := by
  have hden : (0 : ℚ) < w.den := Nat.cast_pos.2 w.den_pos
  have hnum : ((w.num.toNat : ℕ) : ℚ) = w.num := by
    exact_mod_cast Int.toNat_of_nonneg (Rat.num_nonneg.2 hpos.le)
  have hlt : (2 : ℚ) * w.num.toNat < w.den := by
    rw [hnum, ← div_lt_one hden, mul_div_assoc, Rat.num_div_den]
    exact h
  exact_mod_cast hlt

theorem le_num_div_den {w : ℚ} {n : Nat} (h : (n : ℚ) ≤ w) : n ≤ w.num.toNat / w.den := by
  have hden : (0 : ℚ) < w.den := Nat.cast_pos.2 w.den_pos
  have hnum : ((w.num.toNat : ℕ) : ℚ) = w.num := by
    exact_mod_cast Int.toNat_of_nonneg (Rat.num_nonneg.2 ((Nat.cast_nonneg n).trans h))
  have hle : (n : ℚ) * w.den ≤ w.num.toNat := by
    rwa [hnum, ← le_div_iff₀ hden, Rat.num_div_den]
  exact (Nat.le_div_iff_mul_le w.den_pos).2 (by exact_mod_cast hle)

/-- What is less than half of the least double becomes zero. -/
theorem nearest_of_tiny {v : ℚ} (s : Sign) (hpos : 0 < v) (h : v < 2 ^ (-1075 : ℤ)) :
    nearest s v = .zero s := by
  have hlog : Int.log 2 v < -1075 :=
    (Int.lt_zpow_iff_log_lt Nat.one_lt_two hpos).1 (by exact_mod_cast h)
  have htarget : target v = -1074 := by
    rw [target]
    omega
  have hsteps : 2 * (v / 2 ^ (-1074 : ℤ)) < 1 := by
    have hpow : (2 : ℚ) ^ (-1075 : ℤ) * 2 = 2 ^ (-1074 : ℤ) := by
      rw [← zpow_add_one₀ two_ne_zero]
      norm_num
    rw [← mul_div_assoc, div_lt_one (zpow_pos two_pos _), ← hpow, mul_comm]
    exact mul_lt_mul_of_pos_right h two_pos
  have hlt := two_mul_num_lt_den (div_pos hpos (zpow_pos two_pos _)) hsteps
  have hzero : (shiftToTargetExponent Format.binary64 0 (-1074) .exact).1.mantissa = 0 := by
    rw [shiftToTargetExponent_exact]
    exact Nat.zero_div _
  rw [nearest, htarget, finish]
  simp only [roundedMantissa_of_two_mul_lt hlt, hzero, ↓reduceDIte]

/-- What is beyond the doubles has a mantissa and an exponent too great for one. -/
theorem nearest_of_huge {v : ℚ} (s : Sign) (h : 2 ^ (1024 : ℤ) ≤ v) :
    UnpackedFloat.pack Format.binary64 (nearest s v) = packedInfinity Format.binary64 s := by
  have hpos : 0 < v := lt_of_lt_of_le (zpow_pos two_pos _) h
  have hlog : 1024 ≤ Int.log 2 v :=
    (Int.zpow_le_iff_le_log Nat.one_lt_two hpos).1 (by exact_mod_cast h)
  have htarget : target v = Int.log 2 v - 52 := by
    rw [target]
    omega
  generalize hem : quotient (v / 2 ^ target v).num.toNat (v / 2 ^ target v).den = em
  have hsteps : 2 ^ 52 ≤ em.roundedMantissa := by
    have hle : ((2 ^ 52 : ℕ) : ℚ) ≤ v / 2 ^ target v := by
      rw [le_div_iff₀ (zpow_pos two_pos _), htarget]
      have hself := Int.zpow_log_le_self Nat.one_lt_two hpos
      have hpow : ((2 ^ 52 : ℕ) : ℚ) * 2 ^ (Int.log 2 v - 52) = (2 : ℕ) ^ Int.log 2 v := by
        rw [Nat.cast_pow, Nat.cast_ofNat, ← zpow_natCast, ← zpow_add₀ two_ne_zero]
        congr 1
        omega
      rw [hpow]
      exact hself
    rw [← hem]
    exact (le_num_div_den hle).trans (mantissa_le_roundedMantissa (quotient _ _))
  have hfull : 52 ≤ em.roundedMantissa.log2 := (Nat.le_log2 (by omega)).2 hsteps
  have hshift : (max (em.roundedMantissa.log2 - 52 : ℤ) (-1074 - target v)).toNat =
      em.roundedMantissa.log2 - 52 := by omega
  have hmantissa : 0 < em.roundedMantissa / 2 ^ (em.roundedMantissa.log2 - 52) := by
    apply Nat.div_pos _ (Nat.two_pow_pos _)
    exact (Nat.pow_le_pow_right (by decide) (Nat.sub_le _ _)).trans (Nat.log2_self_le (by omega))
  have hfinish : finish s em (target v) =
      .finite s (em.roundedMantissa / 2 ^ (em.roundedMantissa.log2 - 52))
        (target v + (em.roundedMantissa.log2 - 52 : ℕ)) hmantissa := by
    have hne : (quotient em.roundedMantissa (2 ^ (em.roundedMantissa.log2 - 52))).mantissa ≠ 0 :=
      hmantissa.ne'
    rw [finish]
    simp only [shiftToTargetExponent_exact, hshift, hne, ↓reduceDIte]
    rfl
  have hbiased :
      2 ^ 11 ≤ (target v + (em.roundedMantissa.log2 - 52 : ℕ) + 1023 + 52).toNat + 1 := by
    omega
  rw [nearest, hem, hfinish, UnpackedFloat.pack, if_pos]
  exact hbiased

end GrowthEstimate.Rounding
