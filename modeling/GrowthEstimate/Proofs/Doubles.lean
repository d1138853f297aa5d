import GrowthEstimate.Decimal.Magnitude
import GrowthEstimate.Proofs.Rounding

/-!
# The parts of a double

The bits of a finite double are its sign, an exponent and a fraction, and the mantissa and exponent
that they stand for.

* `toNat_pack_finite`: the bits as a number;
* `unpack_of_normal`, `unpack_of_subnormal`: the parts from the bits;
* `parts_of_isFinite`: every finite double comes from its parts;
* `ofFloat_finite`, `isNegative_finite`: its exact value and its sign.
-/

namespace GrowthEstimate.Decimal

open Float.Model Float.Model.UnpackedFloat
open Rounding

/-! ## The bits of a double -/

def signBit : Sign → Nat
  | .positive => 0
  | .negative => 1

theorem signBit_injective {s t : Sign} (h : signBit s = signBit t) : s = t := by
  cases s <;> cases t <;> first | rfl | cases h

theorem toNat_toBitVec (s : Sign) : s.toBitVec.toNat = signBit s := by cases s <;> rfl

theorem signBit_ofBitVec (b : BitVec 1) : signBit (Sign.ofBitVec b) = b.toNat := by
  revert b
  decide

theorem toNat_packComponents (s : Sign) (exponent : BitVec 11) (fraction : BitVec 52) :
    (packComponents Format.binary64 s exponent fraction).toNat =
      (signBit s * 2 ^ 11 + exponent.toNat) * 2 ^ 52 + fraction.toNat := by
  rw [packComponents, BitVec.toNat_append, BitVec.toNat_append, toNat_toBitVec,
    ← Nat.shiftLeft_add_eq_or_of_lt exponent.isLt, ← Nat.shiftLeft_add_eq_or_of_lt fraction.isLt,
    Nat.shiftLeft_eq, Nat.shiftLeft_eq]

section

variable (b : BitVec Format.binary64.numBits)

theorem toNat_unpackMantissa : (unpackMantissa b).toNat = b.toNat % 2 ^ 52 := by
  simp [unpackMantissa]

theorem toNat_unpackExponent : (unpackExponent b).toNat = b.toNat / 2 ^ 52 % 2 ^ 11 := by
  simp [unpackExponent, Nat.shiftRight_eq_div_pow]

theorem toNat_unpackSign : (unpackSign b).toNat = b.toNat / 2 ^ 63 % 2 := by
  simp [unpackSign, Nat.shiftRight_eq_div_pow]

end

/-! ## Parts of a double -/

/-- The bits of a double are those of its parts. -/
theorem toNat_pack_finite {m : Nat} {e : ℤ} (s : Sign) (h : Canonical m e) (he : e ≤ 971) :
    (UnpackedFloat.pack Format.binary64 (.finite s m e h.pos)).toNat =
      signBit s * 2 ^ 63 + ((e + 1074).toNat * 2 ^ 52 + m) := by
  have hlt := h.lt
  have hleast := h.least
  have hbiased :
      (e + (Format.binary64.exponentBias : ℕ) + (52 : ℕ)).toNat = (e + 1074).toNat + 1 := by
    have hbias : Format.binary64.exponentBias = 1023 := rfl
    rw [hbias]
    omega
  have hfinite : ¬ 2 ^ 11 ≤ (e + 1074).toNat + 1 + 1 := by omega
  rw [UnpackedFloat.pack]
  simp only [hbiased, hfinite, ↓reduceIte]
  split
  · next hnormal =>
    have hlog : m.log2 = 52 := by
      have hbits : Format.binary64.mantissaBits = 53 := rfl
      omega
    have hfull : 2 ^ 52 ≤ m := (Nat.le_log2 h.pos.ne').1 hlog.ge
    rw [toNat_packComponents, BitVec.toNat_ofNat, BitVec.toNat_ofNat]
    omega
  · next hsubnormal =>
    have hlog : m.log2 < 52 := by
      have hbits : Format.binary64.mantissaBits = 53 := rfl
      have hle : m.log2 < 53 := (Nat.log2_lt h.pos.ne').2 h.lt
      omega
    have hsmall : m < 2 ^ 52 := (Nat.log2_lt h.pos.ne').1 hlog
    have hexponent : e = -1074 := h.full.resolve_left (by omega)
    rw [toNat_packComponents, BitVec.toNat_ofNat, BitVec.toNat_ofNat, hexponent]
    omega

section

variable (b : BitVec Format.binary64.numBits)

def signOf : Sign := Sign.ofBitVec (unpackSign b)

theorem signBit_signOf : signBit (signOf b) = b.toNat / 2 ^ 63 % 2 := by
  rw [signOf, signBit_ofBitVec, toNat_unpackSign]

theorem unpackExponent_eq_iff (exponent : BitVec 11) :
    unpackExponent b = exponent ↔ b.toNat / 2 ^ 52 % 2 ^ 11 = exponent.toNat := by
  rw [← BitVec.toNat_inj, toNat_unpackExponent]

variable {b}

theorem unpack_of_normal (hleast : b.toNat / 2 ^ 52 % 2 ^ 11 ≠ 0)
    (hgreatest : b.toNat / 2 ^ 52 % 2 ^ 11 ≠ 0x7FF) :
    UnpackedFloat.unpack Format.binary64 b =
      .finite (signOf b) (2 ^ 52 + b.toNat % 2 ^ 52) ((b.toNat / 2 ^ 52 % 2 ^ 11 : ℕ) - 1075)
        (Nat.add_pos_left (Nat.two_pow_pos 52) _) := by
  have hones : unpackExponent b ≠ -1#11 := (unpackExponent_eq_iff b _).not.2 hgreatest
  have hzero : unpackExponent b ≠ 0#11 := (unpackExponent_eq_iff b _).not.2 hleast
  have hmantissa : (1#1 ++ unpackMantissa b).toNat = 2 ^ 52 + b.toNat % 2 ^ 52 := by
    rw [BitVec.toNat_append, ← Nat.shiftLeft_add_eq_or_of_lt (unpackMantissa b).isLt,
      toNat_unpackMantissa]
    rfl
  rw [UnpackedFloat.unpack]
  simp only [hones, hzero, ↓reduceIte, hmantissa, toNat_unpackExponent]
  rfl

theorem unpack_of_subnormal (hexponent : b.toNat / 2 ^ 52 % 2 ^ 11 = 0)
    (hpos : 0 < b.toNat % 2 ^ 52) :
    UnpackedFloat.unpack Format.binary64 b =
      .finite (signOf b) (b.toNat % 2 ^ 52) (-1074) hpos := by
  have hzero : unpackExponent b = 0#11 := (unpackExponent_eq_iff b _).2 hexponent
  have hmantissa : unpackMantissa b ≠ 0#52 := by
    rw [Ne, ← BitVec.toNat_inj, toNat_unpackMantissa]
    exact hpos.ne'
  rw [UnpackedFloat.unpack]
  simp only [hzero, hmantissa, ↓reduceIte, ↓reduceDIte, toNat_unpackMantissa]
  rfl

theorem exponent_ne_of_isFinite (h : (UnpackedFloat.unpack Format.binary64 b).isFinite = true) :
    b.toNat / 2 ^ 52 % 2 ^ 11 ≠ 0x7FF := by
  intro hexponent
  have hones : unpackExponent b = -1#11 := (unpackExponent_eq_iff b _).2 hexponent
  rw [UnpackedFloat.unpack] at h
  simp only [hones, ↓reduceIte] at h
  split at h
  · cases h
  · cases h

end

/-! ## Doubles from their parts -/

def ofParts (u : UnpackedFloat) : Float := Float.ofModel (Float.Model.pack u)

theorem toNat_toBits_ofParts (u : UnpackedFloat) :
    (ofParts u).toBits.toNat = (UnpackedFloat.pack Format.binary64 u).toNat := rfl

theorem eq_of_toNat_toBits {x y : Float} (h : x.toBits.toNat = y.toBits.toNat) : x = y := by
  obtain ⟨⟨xs, _⟩⟩ := x
  obtain ⟨⟨ys, _⟩⟩ := y
  obtain rfl : xs = ys := UInt64.toNat_inj.1 h
  rfl

theorem toNat_pack_zero (s : Sign) :
    (UnpackedFloat.pack Format.binary64 (.zero s)).toNat = signBit s * 2 ^ 63 := by
  cases s <;> decide

section

variable {m : Nat} {e : ℤ} (s : Sign) (h : Canonical m e) (he : e ≤ 971)

include he

theorem unpack_pack_finite :
    UnpackedFloat.unpack Format.binary64
      (UnpackedFloat.pack Format.binary64 (.finite s m e h.pos)) = .finite s m e h.pos := by
  have hbits := toNat_pack_finite s h he
  have hlt := h.lt
  have hleast := h.least
  have hpos := h.pos
  have hsign : signBit s < 2 := by cases s <;> decide
  generalize UnpackedFloat.pack Format.binary64 (.finite s m e h.pos) = b at hbits
  have hs : signOf b = s := signBit_injective (by
    rw [signBit_signOf]
    omega)
  rcases Nat.lt_or_ge m (2 ^ 52) with hsmall | hfull
  · have hexponent : e = -1074 := h.full.resolve_left (by omega)
    have hfraction : b.toNat % 2 ^ 52 = m := by omega
    rw [unpack_of_subnormal (by omega) (by omega)]
    simp only [hs, hfraction, hexponent]
  · have hfraction : 2 ^ 52 + b.toNat % 2 ^ 52 = m := by omega
    have hexponent : ((b.toNat / 2 ^ 52 % 2 ^ 11 : ℕ) - 1075 : ℤ) = e := by omega
    rw [unpack_of_normal (by omega) (by omega)]
    simp only [hs, hfraction, hexponent]

theorem ofFloat_finite :
    Magnitude.ofFloat (ofParts (.finite s m e h.pos)) = Magnitude.scaled m e := by
  have hbits := toNat_pack_finite s h he
  have hlt := h.lt
  have hleast := h.least
  have hsign : signBit s < 2 := by cases s <;> decide
  have hfractions : Magnitude.fractionEnd = 2 ^ 52 := rfl
  have hexponents : Magnitude.exponentEnd = 2 ^ 11 := rfl
  simp only [Magnitude.ofFloat, toNat_toBits_ofParts, hbits]
  rcases Nat.lt_or_ge m (2 ^ 52) with hsmall | hfull
  · have hexponent : e = -1074 := h.full.resolve_left (by omega)
    rw [if_pos (by rw [hfractions, hexponents]; omega), hexponent]
    congr 1
    rw [hfractions]
    omega
  · rw [if_neg (by rw [hfractions, hexponents]; omega), hfractions, hexponents]
    congr 1
    · omega
    · omega

theorem isNegative_finite : isNegative (ofParts (.finite s m e h.pos)) = (signBit s == 1) := by
  have hbits := toNat_pack_finite s h he
  have hlt := h.lt
  have hsign : signBit s < 2 := by cases s <;> decide
  rw [isNegative, toNat_toBits_ofParts, hbits, Bool.eq_iff_iff, decide_eq_true_iff, beq_iff_eq]
  omega

theorem neg_ofParts_finite :
    -ofParts (.finite s m e h.pos) = ofParts (.finite (-s) m e h.pos) := by
  have hneg : -ofParts (.finite s m e h.pos) =
      ofParts (UnpackedFloat.unpack Format.binary64
        (UnpackedFloat.pack Format.binary64 (.finite s m e h.pos))).neg := rfl
  rw [hneg, unpack_pack_finite s h he]
  rfl

end

/-- A finite double is a zero, or it has a mantissa and an exponent. -/
theorem parts_of_isFinite {x : Float} (hx : x.isFinite = true) :
    (∃ s, x = ofParts (.zero s)) ∨
      ∃ s m e, ∃ h : Canonical m e, e ≤ 971 ∧ x = ofParts (.finite s m e h.pos) := by
  have hgreatest : x.toBits.toBitVec.toNat / 2 ^ 52 % 2 ^ 11 ≠ 0x7FF := exponent_ne_of_isFinite hx
  have hsign := signBit_signOf x.toBits.toBitVec
  have hlt : x.toBits.toBitVec.toNat < 2 ^ 64 := x.toBits.toBitVec.isLt
  have hbits : x.toBits.toNat = x.toBits.toBitVec.toNat := rfl
  generalize x.toBits.toBitVec = b at *
  by_cases hzero : b.toNat / 2 ^ 52 % 2 ^ 11 = 0
  · by_cases hfraction : b.toNat % 2 ^ 52 = 0
    · refine .inl ⟨signOf b, eq_of_toNat_toBits ?_⟩
      rw [toNat_toBits_ofParts, toNat_pack_zero, hbits]
      omega
    · have h : Canonical (b.toNat % 2 ^ 52) (-1074) :=
        ⟨Nat.pos_of_ne_zero hfraction, by omega, le_rfl, .inr rfl⟩
      refine .inr ⟨signOf b, _, _, h, by omega, eq_of_toNat_toBits ?_⟩
      rw [toNat_toBits_ofParts, toNat_pack_finite _ h (by omega), hbits]
      omega
  · have h : Canonical (2 ^ 52 + b.toNat % 2 ^ 52) ((b.toNat / 2 ^ 52 % 2 ^ 11 : ℕ) - 1075) :=
      ⟨by omega, by omega, by omega, .inl (by omega)⟩
    refine .inr ⟨signOf b, _, _, h, by omega, eq_of_toNat_toBits ?_⟩
    rw [toNat_toBits_ofParts, toNat_pack_finite _ h (by omega), hbits]
    omega

end GrowthEstimate.Decimal
