import GrowthEstimate.Decimal.Shortest
import GrowthEstimate.Proofs.Doubles

/-!
# Decimals read as doubles

A decimal is read as the double nearest to it, so it does not matter which digits and which power
of ten make it up.  The decimal that a double is written as reads back as the double.

* `div_finite`, `mul_finite`: arithmetic on positive doubles rounds the exact result;
* `ofScientific_eq`, `toFloat_eq`: reading a decimal rounds it;
* `toFloat_congr`: decimals of one sign and magnitude are read alike;
* `toFloat_shortest`: the shortest decimal of a finite double reads back.
-/

namespace GrowthEstimate.Decimal

open Float.Model Float.Model.UnpackedFloat
open Rounding

/-! ## Arithmetic on positive doubles -/

theorem log_mul_le {v w : ℚ} (hv : 0 < v) (hw : 0 < w) :
    Int.log 2 v + Int.log 2 w ≤ Int.log 2 (v * w) := by
  apply (Int.zpow_le_iff_le_log Nat.one_lt_two (mul_pos hv hw)).1
  rw [zpow_add₀ (by norm_num)]
  exact mul_le_mul (Int.zpow_log_le_self Nat.one_lt_two hv)
    (Int.zpow_log_le_self Nat.one_lt_two hw) (zpow_nonneg (by norm_num) _) hv.le

theorem log_div_le {v w : ℚ} (hv : 0 < v) (hw : 0 < w) :
    Int.log 2 v - Int.log 2 w ≤ Int.log 2 (v / w) + 1 := by
  have hexp : Int.log 2 v = (Int.log 2 v - Int.log 2 w - 1) + (Int.log 2 w + 1) := by omega
  have hle : ((2 : ℕ) : ℚ) ^ (Int.log 2 v - Int.log 2 w - 1) ≤ v / w := by
    rw [le_div_iff₀ hw]
    calc ((2 : ℕ) : ℚ) ^ (Int.log 2 v - Int.log 2 w - 1) * w
        ≤ (2 : ℕ) ^ (Int.log 2 v - Int.log 2 w - 1) * (2 : ℕ) ^ (Int.log 2 w + 1) :=
          mul_le_mul_of_nonneg_left (Int.lt_zpow_succ_log_self Nat.one_lt_two w).le
            (zpow_nonneg (by norm_num) _)
      _ = (2 : ℕ) ^ Int.log 2 v := by rw [← zpow_add₀ (by norm_num), ← hexp]
      _ ≤ v := Int.zpow_log_le_self Nat.one_lt_two hv
  have hlog := (Int.zpow_le_iff_le_log Nat.one_lt_two (div_pos hv hw)).1 hle
  omega

section

variable {m n : Nat} {e f : ℤ} {v w : ℚ} (hm : 0 < m) (hv : (m : ℚ) * 2 ^ e = v)

include hv in
theorem mul_two_pow_mul_zpow (k : Nat) : ((m * 2 ^ k : ℕ) : ℚ) * 2 ^ (e - k) = v := by
  rw [Nat.cast_mul, Nat.cast_pow, Nat.cast_ofNat, zpow_sub₀ two_ne_zero, zpow_natCast, ← hv]
  field_simp

include hm hv

theorem round_eq :
    UnpackedFloat.round Format.binary64 .positive m e = nearest .positive v := by
  have hlog := log_mul_zpow hm e
  have hpos : 0 < v := hv ▸ mul_pos (Nat.cast_pos.2 hm) (zpow_pos two_pos e)
  rw [hv] at hlog
  rw [UnpackedFloat.round, decreaseExponent, Nat.shiftLeft_eq]
  apply roundWithAccuracy_exact _ (mul_two_pow_mul_zpow hv _) hpos
  rw [targetExponent_eq, totalExponent, target, hlog]
  omega

variable (hn : 0 < n) (hw : (n : ℚ) * 2 ^ f = w)

include hn hw

theorem mul_finite (he : e + f ≤ target (v * w)) :
    UnpackedFloat.mul Format.binary64 (.finite .positive m e hm) (.finite .positive n f hn) =
      nearest .positive (v * w) := by
  have hvalue : ((m * n : ℕ) : ℚ) * 2 ^ (e + f) = v * w := by
    rw [Nat.cast_mul, zpow_add₀ two_ne_zero, ← hv, ← hw]
    ring
  have hpos : 0 < v * w := by
    rw [← hvalue]
    exact mul_pos (Nat.cast_pos.2 (Nat.mul_pos hm hn)) (zpow_pos two_pos _)
  exact roundWithAccuracy_exact _ hvalue hpos he

theorem div_finite :
    UnpackedFloat.div Format.binary64 (.finite .positive m e hm) (.finite .positive n f hn) =
      nearest .positive (v / w) := by
  have hvpos : 0 < v := hv ▸ mul_pos (Nat.cast_pos.2 hm) (zpow_pos two_pos e)
  have hwpos : 0 < w := hw ▸ mul_pos (Nat.cast_pos.2 hn) (zpow_pos two_pos f)
  have hlog := log_div_le hvpos hwpos
  have hlogv := log_mul_zpow hm e
  have hlogw := log_mul_zpow hn f
  rw [hv] at hlogv
  rw [hw] at hlogw
  generalize hlast : min (e - f)
    (Format.binary64.targetExponent (totalExponent m e - totalExponent n f)) = last
  have hbounds := hlast
  rw [targetExponent_eq, totalExponent, totalExponent] at hbounds
  have hlast' : e - f - (e - f - last).toNat = last := by omega
  have hquotient : ((m * 2 ^ (e - f - last).toNat : ℕ) : ℚ) / n * 2 ^ last = v / w := by
    have hnumerator : (m : ℚ) * 2 ^ (e - f) = v / 2 ^ f := by
      rw [zpow_sub₀ two_ne_zero, ← hv, mul_div_assoc]
    have hshift := mul_two_pow_mul_zpow hnumerator (e - f - last).toNat
    rw [hlast'] at hshift
    rw [div_mul_eq_mul_div, hshift, ← hw, div_div, mul_comm (n : ℚ)]
  have htarget : last ≤ target (v / w) := by
    rw [target]
    omega
  have h := roundWithAccuracy_eq .positive hn hquotient (div_pos hvpos hwpos) htarget
  subst hlast
  rw [← Nat.shiftLeft_eq] at h
  exact h

end

/-! ## Decimals as doubles -/

theorem target_of_one_le {v : ℚ} (h : 1 ≤ v) : -52 ≤ target v := by
  have hlog : 0 ≤ Int.log 2 v := by
    apply (Int.zpow_le_iff_le_log Nat.one_lt_two (one_pos.trans_le h)).1
    rwa [zpow_zero]
  rw [target]
  omega

theorem unpackedOfScientific_eq {m : Nat} {e : ℤ} (hm : 0 < m) (hleast : -(2048 + m.log2) ≤ e)
    (hgreatest : e ≤ 2048) :
    UnpackedFloat.ofScientific Format.binary64 m e = nearest .positive ((m : ℚ) * 10 ^ e) := by
  have hrange : ¬ e > 2 ^ 11 ∧ ¬ e < -((2 : ℤ) ^ 11 + m.log2) := by omega
  rw [UnpackedFloat.ofScientific, dif_neg hm.ne']
  simp only [hrange, ↓reduceIte]
  rcases Int.lt_or_le e 0 with hneg | hnonneg
  · rw [if_neg (by omega)]
    obtain ⟨n, rfl⟩ : ∃ n : ℕ, e = -n := ⟨e.natAbs, by omega⟩
    rw [div_finite (v := (m : ℚ)) (w := 10 ^ n)]
    · rw [zpow_neg, zpow_natCast, div_eq_mul_inv]
    all_goals simp
  · rw [if_pos hnonneg]
    obtain ⟨n, rfl⟩ := Int.eq_ofNat_of_zero_le hnonneg
    have hmantissa : ((m <<< Format.binary64.mantissaBits : ℕ) : ℚ) *
        2 ^ (-(Format.binary64.mantissaBits : ℤ)) = m := by
      have h := mul_two_pow_mul_zpow (m := m) (e := 0) (v := m) (by simp) 53
      rw [zero_sub] at h
      rw [Nat.shiftLeft_eq]
      exact h
    have hpower : ((10 ^ n : ℕ) : ℚ) * 2 ^ (0 : ℤ) = 10 ^ n := by simp
    have htarget : -(Format.binary64.mantissaBits : ℤ) + 0 ≤ target ((m : ℚ) * 10 ^ n) := by
      have hone : (1 : ℚ) ≤ m * 10 ^ n := by
        exact_mod_cast Nat.mul_pos hm (Nat.pow_pos (by decide))
      have hbits : Format.binary64.mantissaBits = 53 := rfl
      have hleast := target_of_one_le hone
      omega
    exact mul_finite _ hmantissa _ hpower htarget

/-- The double is the positive number, with a full mantissa. -/
def IsNormal (x : Float) (v : ℚ) : Prop :=
  ∃ (m : ℕ) (e : ℤ) (hpos : 0 < m), 2 ^ 52 ≤ m ∧ (m : ℚ) * 2 ^ e = v ∧
    x.toModel.unpack = .finite .positive m e hpos

theorem IsNormal.mul {x y : Float} {v w : ℚ} (hx : IsNormal x v) (hy : IsNormal y w) :
    x * y = ofParts (nearest .positive (v * w)) := by
  obtain ⟨m, e, hm, hmfull, hv, hxparts⟩ := hx
  obtain ⟨n, f, hn, hnfull, hw, hyparts⟩ := hy
  have hproduct : x * y =
      ofParts (UnpackedFloat.mul Format.binary64 x.toModel.unpack y.toModel.unpack) := rfl
  have htarget : e + f ≤ target (v * w) := by
    have hvpos : 0 < v := hv ▸ mul_pos (Nat.cast_pos.2 hm) (zpow_pos two_pos e)
    have hwpos : 0 < w := hw ▸ mul_pos (Nat.cast_pos.2 hn) (zpow_pos two_pos f)
    have hlog := log_mul_le hvpos hwpos
    have hlogm := (Nat.le_log2 hm.ne').2 hmfull
    have hlogn := (Nat.le_log2 hn.ne').2 hnfull
    rw [← hv, ← hw, log_mul_zpow hm, log_mul_zpow hn, hv, hw] at hlog
    rw [target]
    omega
  rw [hproduct, hxparts, hyparts, mul_finite hm hv hn hw htarget]

theorem IsNormal.div {x y : Float} {v w : ℚ} (hx : IsNormal x v) (hy : IsNormal y w) :
    x / y = ofParts (nearest .positive (v / w)) := by
  obtain ⟨m, e, hm, -, hv, hxparts⟩ := hx
  obtain ⟨n, f, hn, -, hw, hyparts⟩ := hy
  have hquotient : x / y =
      ofParts (UnpackedFloat.div Format.binary64 x.toModel.unpack y.toModel.unpack) := rfl
  rw [hquotient, hxparts, hyparts, div_finite hm hv hn hw]

theorem powersOfTen_bits : ∀ i : Fin Float.exactlyRepresentablePowersOfTen.size,
    let bits := Float.exactlyRepresentablePowersOfTen[i].toBits.toBitVec.toNat
    let exponent := bits / 2 ^ 52 % 2 ^ 11
    exponent ≠ 0 ∧ exponent ≠ 0x7FF ∧ bits / 2 ^ 63 % 2 = 0 ∧
      (2 ^ 52 + bits % 2 ^ 52) * 2 ^ (exponent - 1075) = 10 ^ i.val * 2 ^ (1075 - exponent) := by
  decide +kernel

/-- The powers of ten of the table are what they are called. -/
theorem isNormal_powerOfTen (n : Nat) (h : n < Float.exactlyRepresentablePowersOfTen.size) :
    IsNormal Float.exactlyRepresentablePowersOfTen[n] (10 ^ n) := by
  obtain ⟨hleast, hgreatest, hsign, hvalue⟩ := powersOfTen_bits ⟨n, h⟩
  have hparts := unpack_of_normal hleast hgreatest
  have hpositive : signOf Float.exactlyRepresentablePowersOfTen[n].toBits.toBitVec = .positive :=
    signBit_injective ((signBit_signOf _).trans hsign)
  simp only [Fin.getElem_fin, hpositive] at hparts hvalue
  refine ⟨_, _, _, Nat.le_add_right _ _, ?_, hparts⟩
  generalize Float.exactlyRepresentablePowersOfTen[n].toBits.toBitVec.toNat = bits at hvalue
  have hexponent : ((bits / 2 ^ 52 % 2 ^ 11 : ℕ) - 1075 : ℤ) =
      (bits / 2 ^ 52 % 2 ^ 11 - 1075 : ℕ) - (1075 - bits / 2 ^ 52 % 2 ^ 11 : ℕ) := by omega
  have hcast : ((2 ^ 52 + bits % 2 ^ 52 : ℕ) : ℚ) * 2 ^ (bits / 2 ^ 52 % 2 ^ 11 - 1075) =
      10 ^ n * 2 ^ (1075 - bits / 2 ^ 52 % 2 ^ 11) := by
    exact_mod_cast hvalue
  rw [hexponent, zpow_sub₀ two_ne_zero, zpow_natCast, zpow_natCast, ← mul_div_assoc, hcast,
    mul_div_cancel_right₀ _ (pow_ne_zero _ two_ne_zero)]

/-- A natural number that fits into a mantissa is a double. -/
theorem isNormal_toFloat {n : Nat} (hpos : 0 < n) (h : n < 2 ^ 53) :
    IsNormal n.toUInt64.toFloat n := by
  have hlog : n.log2 < 53 := (Nat.log2_lt hpos.ne').2 h
  have hfull : 2 ^ 52 ≤ n * 2 ^ (52 - n.log2) := by
    calc 2 ^ 52 = 2 ^ n.log2 * 2 ^ (52 - n.log2) := by rw [← Nat.pow_add]; congr 1; omega
      _ ≤ n * 2 ^ (52 - n.log2) := Nat.mul_le_mul_right _ (Nat.log2_self_le hpos.ne')
  have hlt : n * 2 ^ (52 - n.log2) < 2 ^ 53 := by
    calc n * 2 ^ (52 - n.log2) < 2 ^ (n.log2 + 1) * 2 ^ (52 - n.log2) :=
          Nat.mul_lt_mul_of_pos_right Nat.lt_log2_self (Nat.two_pow_pos _)
      _ = 2 ^ 53 := by rw [← Nat.pow_add]; congr 1; omega
  have hcanonical : Canonical (n * 2 ^ (52 - n.log2)) (0 - (52 - n.log2 : ℕ)) :=
    ⟨by omega, hlt, by omega, .inl hfull⟩
  have hvalue := mul_two_pow_mul_zpow (m := n) (e := 0) (v := n) (by simp) (52 - n.log2)
  have hparts : n.toUInt64.toFloat.toModel.unpack =
      UnpackedFloat.unpack Format.binary64 (UnpackedFloat.pack Format.binary64
        (UnpackedFloat.ofNat Format.binary64 n.toUInt64.toNat)) := rfl
  have hnumber : n.toUInt64.toNat = n := UInt64.toNat_ofNat_of_lt' (by
    rw [UInt64.size]
    omega)
  have hround : UnpackedFloat.ofNat Format.binary64 n =
      .finite .positive (n * 2 ^ (52 - n.log2)) (0 - (52 - n.log2 : ℕ)) hcanonical.pos := by
    have hcompare : compare (n : ℤ) 0 = .gt := Int.compare_eq_gt.2 (by omega)
    have hnearest := nearest_of_canonical .positive hcanonical
    rw [hvalue, ← round_eq hpos (e := 0) (by simp)] at hnearest
    rw [UnpackedFloat.ofNat, UnpackedFloat.ofInt, UnpackedFloat.normalize, hcompare, ← hnearest]
    rfl
  rw [hnumber, hround, unpack_pack_finite _ hcanonical (by omega)] at hparts
  exact ⟨_, _, _, hfull, hvalue, hparts⟩

theorem ofScientific_eq {m : Nat} {e : ℤ} (hm : 0 < m) (hleast : -(2048 + m.log2) ≤ e)
    (hgreatest : e ≤ 2048) :
    Float.ofScientific m (e < 0) e.natAbs = ofParts (nearest .positive ((m : ℚ) * 10 ^ e)) := by
  rw [Float.ofScientific]
  split
  · next hfast =>
    have hnumber := isNormal_toFloat hm hfast.1
    have hsize : Float.exactlyRepresentablePowersOfTen.size = 23 := by decide
    have hpower := isNormal_powerOfTen e.natAbs (by omega)
    split
    · next hneg =>
      have habs : e = -(e.natAbs : ℤ) := by
        have := of_decide_eq_true hneg
        omega
      have hvalue : (m : ℚ) * 10 ^ e = m / 10 ^ e.natAbs := by
        conv_lhs => rw [habs, zpow_neg, zpow_natCast, ← div_eq_mul_inv]
      rw [hvalue]
      exact hnumber.div hpower
    · next hnonneg =>
      have habs : e = (e.natAbs : ℤ) := by
        have := mt decide_eq_true hnonneg
        omega
      have hvalue : (m : ℚ) * 10 ^ e = m * 10 ^ e.natAbs := by
        conv_lhs => rw [habs, zpow_natCast]
      rw [hvalue]
      exact hnumber.mul hpower
  · have hexponent :
        (if decide (e < 0) = true then Int.negOfNat e.natAbs else Int.ofNat e.natAbs) = e := by
      rcases Int.lt_or_le e 0 with hneg | hnonneg
      · rw [if_pos (decide_eq_true hneg), Int.negOfNat_eq, Int.ofNat_eq_natCast]
        omega
      · rw [if_neg (by simpa using hnonneg), Int.ofNat_eq_natCast]
        omega
    rw [hexponent, ← unpackedOfScientific_eq hm hleast hgreatest]
    rfl

/-! ## Reading a decimal -/

def magnitude (d : Decimal) : ℚ := d.digits * 10 ^ d.exponent

def withSign (negative : Bool) (x : Float) : Float := if negative then -x else x

theorem ten_zpow_lt : (10 : ℚ) ^ (-400 : ℤ) < 2 ^ (-1075 : ℤ) := by
  have h : 2 ^ 1075 < 10 ^ 400 := by decide +kernel
  rw [zpow_neg, zpow_neg]
  exact inv_strictAnti₀ (zpow_pos two_pos _) (by exact_mod_cast h)

theorem two_zpow_le : (2 : ℚ) ^ (1024 : ℤ) ≤ 10 ^ (400 : ℤ) := by
  have h : 2 ^ 1024 ≤ 10 ^ 400 := by decide +kernel
  exact_mod_cast h

/-- A number of so many binary digits has no more than a third as many decimal ones, and one. -/
theorem magnitude_lt (d : Decimal) :
    d.magnitude < 10 ^ (d.exponent + (d.digits.log2 : ℤ) / 3 + 1) := by
  have hdigits : d.digits < 10 ^ (d.digits.log2 / 3 + 1) := by
    calc d.digits < 2 ^ (d.digits.log2 + 1) := Nat.lt_log2_self
      _ ≤ 2 ^ (3 * (d.digits.log2 / 3 + 1)) := Nat.pow_le_pow_right (by decide) (by omega)
      _ = 8 ^ (d.digits.log2 / 3 + 1) := Nat.pow_mul 2 3 _
      _ ≤ 10 ^ (d.digits.log2 / 3 + 1) := Nat.pow_le_pow_left (by decide) _
  have hexp : d.exponent + (d.digits.log2 : ℤ) / 3 + 1 =
      (d.digits.log2 / 3 + 1 : ℕ) + d.exponent := by omega
  rw [magnitude, hexp, zpow_add₀ (by norm_num), zpow_natCast]
  exact mul_lt_mul_of_pos_right (by exact_mod_cast hdigits) (zpow_pos (by norm_num) _)

/-- And it has more than a fourth as many. -/
theorem le_magnitude {d : Decimal} (hpos : 0 < d.digits) :
    10 ^ (d.exponent + (d.digits.log2 : ℤ) / 4) ≤ d.magnitude := by
  have hdigits : 10 ^ (d.digits.log2 / 4) ≤ d.digits := by
    calc 10 ^ (d.digits.log2 / 4) ≤ 16 ^ (d.digits.log2 / 4) := Nat.pow_le_pow_left (by decide) _
      _ = 2 ^ (4 * (d.digits.log2 / 4)) := (Nat.pow_mul 2 4 _).symm
      _ ≤ 2 ^ d.digits.log2 := Nat.pow_le_pow_right (by decide) (by omega)
      _ ≤ d.digits := Nat.log2_self_le hpos.ne'
  have hexp : d.exponent + (d.digits.log2 : ℤ) / 4 = (d.digits.log2 / 4 : ℕ) + d.exponent := by
    omega
  rw [magnitude, hexp, zpow_add₀ (by norm_num), zpow_natCast]
  exact mul_le_mul_of_nonneg_right (by exact_mod_cast hdigits) (zpow_nonneg (by norm_num) _)

/-- A decimal is read as the double nearest to it. -/
theorem toFloat_eq {d : Decimal} (hpos : 0 < d.digits) :
    d.toFloat = withSign d.negative (ofParts (nearest .positive d.magnitude)) := by
  have hmagnitude : 0 < d.magnitude :=
    mul_pos (Nat.cast_pos.2 hpos) (zpow_pos (by norm_num) _)
  have hten : (1 : ℚ) < 10 := by norm_num
  have hread : d.toFloat = withSign d.negative
      (if d.digits = 0 || d.exponent + (d.digits.log2 : ℤ) / 3 + 1 < -farthestPoint then 0
        else if farthestPoint < d.exponent + (d.digits.log2 : ℤ) / 4 then 1 / 0
        else Float.ofScientific d.digits (d.exponent < 0) d.exponent.natAbs) := rfl
  have hfarthest : farthestPoint = 400 := rfl
  rw [hread]
  congr 1
  split
  · next hlow =>
    have hexp : d.exponent + (d.digits.log2 : ℤ) / 3 + 1 < -farthestPoint := by
      simpa [hpos.ne'] using hlow
    have htiny : d.magnitude < 2 ^ (-1075 : ℤ) :=
      calc d.magnitude < 10 ^ (d.exponent + (d.digits.log2 : ℤ) / 3 + 1) := magnitude_lt d
        _ ≤ 10 ^ (-400 : ℤ) := zpow_le_zpow_right₀ hten.le (by omega)
        _ < 2 ^ (-1075 : ℤ) := ten_zpow_lt
    rw [nearest_of_tiny _ hmagnitude htiny]
    rfl
  split
  · next hhigh =>
    have hhuge : 2 ^ (1024 : ℤ) ≤ d.magnitude :=
      calc (2 : ℚ) ^ (1024 : ℤ) ≤ 10 ^ (400 : ℤ) := two_zpow_le
        _ ≤ 10 ^ (d.exponent + (d.digits.log2 : ℤ) / 4) := zpow_le_zpow_right₀ hten.le (by omega)
        _ ≤ d.magnitude := le_magnitude hpos
    apply eq_of_toNat_toBits
    rw [toNat_toBits_ofParts, nearest_of_huge _ hhuge]
    decide +kernel
  · next hlow hhigh =>
    have hexp : ¬ d.exponent + (d.digits.log2 : ℤ) / 3 + 1 < -farthestPoint := by
      simpa [hpos.ne'] using hlow
    exact ofScientific_eq hpos (by omega) (by omega)

theorem toFloat_of_zero {d : Decimal} (h : d.digits = 0) : d.toFloat = withSign d.negative 0 := by
  rw [toFloat, withSign]
  simp [h]

/-- Only the sign and the magnitude of a decimal count. -/
theorem toFloat_congr {d d' : Decimal} (hsign : d.negative = d'.negative)
    (h : d.magnitude = d'.magnitude) : d.toFloat = d'.toFloat := by
  have hzero (d : Decimal) : d.magnitude = 0 ↔ d.digits = 0 := by
    rw [magnitude, mul_eq_zero, Nat.cast_eq_zero]
    exact or_iff_left (zpow_ne_zero _ (by norm_num))
  rcases Nat.eq_zero_or_pos d.digits with hd | hd
  · have hd' : d'.digits = 0 := (hzero d').1 (h.symm.trans ((hzero d).2 hd))
    rw [toFloat_of_zero hd, toFloat_of_zero hd', hsign]
  · have hd' : 0 < d'.digits :=
      Nat.pos_of_ne_zero fun hd' => hd.ne' ((hzero d).1 (h.trans ((hzero d').2 hd')))
    rw [toFloat_eq hd, toFloat_eq hd', hsign, h]

/-! ## The decimal of a double -/

theorem magnitude_exact {x : Float} {m : Nat} {e : ℤ}
    (h : Magnitude.ofFloat x = Magnitude.scaled m e) : (exact x).magnitude = (m : ℚ) * 2 ^ e := by
  have hhalvings : (power 2 (-e)).log2 = (-e).toNat := Nat.log2_two_pow
  have hexact : exact x = ⟨isNegative x, m * 2 ^ e.toNat * 5 ^ (-e).toNat, -((-e).toNat : ℤ)⟩ := by
    rw [exact, h]
    simp only [Magnitude.scaled, hhalvings]
    rfl
  have hexp : e = (e.toNat : ℤ) - ((-e).toNat : ℤ) := by omega
  have hten : (10 : ℚ) ^ (-e).toNat = 2 ^ (-e).toNat * 5 ^ (-e).toNat := by
    rw [← mul_pow]
    norm_num
  rw [hexact, magnitude]
  conv_rhs => rw [hexp, zpow_sub₀ two_ne_zero, zpow_natCast, zpow_natCast]
  push_cast
  rw [zpow_neg, zpow_natCast, hten]
  field_simp

/-- All digits of a double read back. -/
theorem toFloat_exact {m : Nat} {e : ℤ} (s : Float.Model.UnpackedFloat.Sign) (h : Canonical m e)
    (he : e ≤ 971) :
    (exact (ofParts (.finite s m e h.pos))).toFloat = ofParts (.finite s m e h.pos) := by
  have hmagnitude := magnitude_exact (ofFloat_finite s h he)
  have hpos : 0 < (exact (ofParts (.finite s m e h.pos))).digits := by
    rw [exact, ofFloat_finite s h he]
    exact Nat.mul_pos (Nat.mul_pos h.pos (Nat.two_pow_pos _)) (Nat.pow_pos (by decide))
  have hsign : (exact (ofParts (.finite s m e h.pos))).negative = (signBit s == 1) :=
    isNegative_finite s h he
  rw [toFloat_eq hpos, hmagnitude, nearest_of_canonical _ h, hsign]
  cases s with
  | positive => rfl
  | negative => exact neg_ofParts_finite .positive h he

/-- What a finite double is written as reads back as the double. -/
theorem toFloat_shortest {x : Float} (hx : x.isFinite = true) : (shortest x).toFloat = x := by
  rcases parts_of_isFinite hx with ⟨s, rfl⟩ | ⟨s, m, e, h, he, rfl⟩
  · cases s <;> decide +kernel
  · have hnum : (Magnitude.ofFloat (ofParts (.finite s m e h.pos))).num ≠ 0 := by
      rw [ofFloat_finite s h he]
      exact (Nat.mul_pos h.pos (Nat.two_pow_pos _)).ne'
    rw [shortest, if_neg hnum]
    cases hshort : shortest? (ofParts (.finite s m e h.pos)) with
    | none => exact toFloat_exact s h he
    | some d => exact eq_of_toNat_toBits (congrArg UInt64.toNat (toFloat_of_shortest? hshort))

end GrowthEstimate.Decimal
