import Mathlib.Data.List.TakeWhile
import GrowthEstimate.Decimal.Layout
import GrowthEstimate.Json.Token
import GrowthEstimate.Proofs.DecimalReading

/-!
# Numerals read back

The text of a number is taken apart as it was put together, in every layout: digits with the point
before, among or behind them, or one digit and an exponent.

* `isSignificant`, `magnitude_significant`: the digits of a decimal and where its point stands;
* `isNumeral_text`: its text is a numeral of its magnitude;
* `takeNumber?_isNumeral`: a numeral is read as the double that the decimal is read as;
* `ofWord_ofInt`, `ofWord_floatText`: whole numbers and finite doubles are read back from words.
-/

namespace GrowthEstimate.Decimal

/-! ## Runs of digits -/

def IsDigits (s : Text) : Prop := ∀ c ∈ s, c.isDigit = true

def EndsDigits (s : Text) : Prop := ∀ c ∈ s.head?, c.isDigit = false

theorem endsDigits_nil : EndsDigits [] := fun _ h => by cases h

theorem IsDigits.append {s t : Text} (hs : IsDigits s) (ht : IsDigits t) : IsDigits (s ++ t) :=
  fun c hc => (List.mem_append.1 hc).elim (hs c) (ht c)

theorem isDigits_ofNat (n : Nat) : IsDigits (ofNat n) := fun _ => isDigit_of_mem_ofNat

theorem isDigits_zeros (n : Nat) : IsDigits (List.replicate n '0') := fun c hc => by
  rw [List.eq_of_mem_replicate hc]
  decide

theorem takeDigits_of_isDigits {s rest : Text} (hs : IsDigits s) (hrest : EndsDigits rest) :
    takeDigits (s ++ rest) = (s, rest) := by
  have htake : rest.takeWhile Char.isDigit = [] := by
    cases rest with
    | nil => rfl
    | cons c rest => simp [hrest c rfl]
  have hdrop : rest.dropWhile Char.isDigit = rest := by
    cases rest with
    | nil => rfl
    | cons c rest => simp [hrest c rfl]
  rw [takeDigits, List.takeWhile_append_of_pos hs, List.dropWhile_append_of_pos hs, htake, hdrop,
    List.append_nil]

theorem ofDigits_append (s t : Text) :
    ofDigits (s ++ t) = ofDigits s * 10 ^ t.length + ofDigits t := by
  rw [ofDigits_eq, Nat.ofDigitChars_append, Nat.ofDigitChars_eq_ofDigitChars_zero, ← ofDigits_eq,
    ← ofDigits_eq, Nat.mul_comm]

theorem ofDigits_zeros (n : Nat) : ofDigits (List.replicate n '0') = 0 := by
  rw [ofDigits_eq, Nat.ofDigitChars_replicate_zero, Nat.mul_zero]

theorem ofDigits_zeros_append (n : Nat) (s : Text) :
    ofDigits (List.replicate n '0' ++ s) = ofDigits s := by
  rw [ofDigits_append, ofDigits_zeros, Nat.zero_mul, Nat.zero_add]

theorem head?_ofNat {n : Nat} (h : 0 < n) : (ofNat n).head? ≠ some '0' := by
  induction n using Nat.strongRecOn with
  | ind n ih =>
    rw [ofNat, Nat.toDigits_eq_if (by decide)]
    split
    · next hlt =>
      have hdigit : ∀ k < 10, 0 < k → Nat.digitChar k ≠ '0' := by decide
      simpa using hdigit n hlt h
    · next hge =>
      rw [List.head?_append_of_ne_nil _ Nat.toDigits_ne_nil]
      exact ih (n / 10) (by omega) (by omega)

/-! ## Parts of a numeral -/

/-- The digits in front of the point: a zero, or digits that do not start with one. -/
structure IsWhole (s : Text) : Prop where
  digits : IsDigits s
  ne_nil : s ≠ []
  zero : s.head? = some '0' → s = ['0']

theorem takeWhole_of_isWhole {s rest : Text} (hs : IsWhole s) (hrest : EndsDigits rest) :
    takeWhole (s ++ rest) = (s, rest) := by
  cases s with
  | nil => exact absurd rfl hs.ne_nil
  | cons c s =>
    by_cases hc : c = '0'
    · subst hc
      rw [hs.zero rfl]
      rfl
    · have htake : takeWhole (c :: s ++ rest) = takeDigits (c :: s ++ rest) := by
        rw [List.cons_append, takeWhole]
        rintro s' h
        cases h
        exact hc rfl
      rw [htake, takeDigits_of_isDigits hs.digits hrest]

theorem takeMinus_sign {s : Text} (h : s.head? ≠ some '-') (negative : Bool) :
    takeMinus ((if negative then ['-'] else []) ++ s) = (negative, s) := by
  cases negative with
  | true => rfl
  | false =>
    rw [if_neg Bool.false_ne_true, List.nil_append, takeMinus]
    rintro s' rfl
    exact h rfl

theorem takeFraction_point {s rest : Text} (hs : IsDigits s) (hne : s ≠ [])
    (hrest : EndsDigits rest) : takeFraction ('.' :: s ++ rest) = (s, rest) := by
  rw [List.cons_append, takeFraction, takeDigits_of_isDigits hs hrest, if_neg (by simpa using hne)]

theorem takeFraction_none {s : Text} (h : s.head? ≠ some '.') : takeFraction s = ([], s) := by
  rw [takeFraction]
  rintro s' rfl
  exact h rfl

theorem takeSign_of_isDigits {s : Text} (hs : IsDigits s) : takeSign s = (false, s) := by
  cases s with
  | nil => rfl
  | cons c s =>
    have hc : c.isDigit = true := hs c List.mem_cons_self
    have hplus : c ≠ '+' := by
      rintro rfl
      cases hc
    have hminus : c ≠ '-' := by
      rintro rfl
      cases hc
    simp [takeSign, takeMinus, hplus, hminus]

theorem takeExponent_exponentText (layout : Layout) (exponent : ℤ) :
    takeExponent (exponentText layout exponent) = (some exponent, []) := by
  generalize hzeros : layout.exponentDigits - (ofNat exponent.natAbs).length = zeros
  generalize hrun : List.replicate zeros '0' ++ ofNat exponent.natAbs = run
  have hdigits : IsDigits run := hrun ▸ (isDigits_zeros zeros).append (isDigits_ofNat _)
  have hvalue : ofDigits run = exponent.natAbs := by
    rw [← hrun, ofDigits_zeros_append, ofDigits_ofNat]
  have hne : run ≠ [] := hrun ▸ List.append_ne_nil_of_right_ne_nil _ (ofNat_ne_nil _)
  have htext : exponentText layout exponent =
      'e' :: ((if exponent < 0 then ['-'] else if layout.plusSign then ['+'] else []) ++ run) := by
    rw [exponentText, ← hrun, ← hzeros]
    simp
  have hsign :
      takeSign ((if exponent < 0 then ['-'] else if layout.plusSign then ['+'] else []) ++ run)
        = (decide (exponent < 0), run) := by
    split
    · next hneg => simp [takeSign, takeMinus, hneg]
    · next hneg =>
      rw [decide_eq_false hneg]
      split
      · rfl
      · exact takeSign_of_isDigits hdigits
  have hrest := takeDigits_of_isDigits hdigits endsDigits_nil
  rw [List.append_nil] at hrest
  have hexponent : signed (decide (exponent < 0)) run = exponent := by
    rw [signed, hvalue]
    rcases Int.lt_or_le exponent 0 with h | h
    · rw [if_pos (decide_eq_true h)]
      omega
    · rw [if_neg (by simpa using h)]
      omega
  rw [htext, takeExponent]
  simp [hsign, hrest, hexponent, hne]

/-! ## The digits of a decimal -/

theorem dropEndWhile_zeros (s : Text) :
    ∃ zeros, s = Text.dropEndWhile (· == '0') s ++ List.replicate zeros '0' := by
  refine ⟨(s.reverse.takeWhile (· == '0')).length, ?_⟩
  have hmem : ∀ c ∈ s.reverse.takeWhile (· == '0'), c = '0' := fun c hc => by
    simpa using List.mem_takeWhile_imp hc
  have hzeros := List.eq_replicate_of_mem hmem
  have hsplit := congrArg List.reverse (List.takeWhile_append_dropWhile (p := (· == '0'))
    (l := s.reverse))
  rw [List.reverse_append, List.reverse_reverse] at hsplit
  rw [Text.dropEndWhile, ← List.reverse_replicate, ← hzeros, hsplit]

/-- The digits of a number are those that count and zeros. -/
theorem exists_significant {d : Decimal} (hpos : 0 < d.digits) :
    ∃ zeros, ofNat d.digits = significant d ++ List.replicate zeros '0' := by
  rw [significant, if_neg hpos.ne']
  exact dropEndWhile_zeros _

theorem significant_of_zero {d : Decimal} (h : d.digits = 0) : significant d = [] := by
  rw [significant, if_pos h]

/-- What the digits of a numeral have to be like, when the point stands at the position. -/
structure IsSignificant (s : Text) (point : ℤ) : Prop where
  digits : IsDigits s
  head_ne_zero : s.head? ≠ some '0'
  point_of_nil : s = [] → point = 1

def pointOf (d : Decimal) : ℤ := if d.digits = 0 then 1 else d.exponent + (ofNat d.digits).length

theorem isSignificant (d : Decimal) : IsSignificant (significant d) (pointOf d) := by
  rcases Nat.eq_zero_or_pos d.digits with hzero | hpos
  · rw [significant_of_zero hzero, pointOf, if_pos hzero]
    exact ⟨fun _ h => (by cases h), fun h => (by cases h), fun _ => rfl⟩
  · obtain ⟨zeros, hdigits⟩ := exists_significant hpos
    have hhead := head?_ofNat hpos
    have hne : significant d ≠ [] := by
      intro hnil
      rw [hnil, List.nil_append] at hdigits
      cases zeros with
      | zero => exact ofNat_ne_nil _ hdigits
      | succ zeros => exact hhead (by rw [hdigits]; rfl)
    rw [hdigits, List.head?_append_of_ne_nil _ hne] at hhead
    refine ⟨fun c hc => isDigits_ofNat d.digits c ?_, hhead, fun hnil => absurd hnil hne⟩
    rw [hdigits]
    exact List.mem_append_left _ hc

/-- The digits and the position of the point make up the decimal. -/
theorem magnitude_significant (d : Decimal) :
    (ofDigits (significant d) : ℚ) * 10 ^ (pointOf d - (significant d).length) = d.magnitude := by
  rcases Nat.eq_zero_or_pos d.digits with hzero | hpos
  · have hnil : ofDigits [] = 0 := rfl
    rw [significant_of_zero hzero, hnil, magnitude, hzero, Nat.cast_zero, zero_mul, zero_mul]
  · obtain ⟨zeros, hdigits⟩ := exists_significant hpos
    have hvalue : d.digits = ofDigits (significant d) * 10 ^ zeros := by
      conv_lhs => rw [← ofDigits_ofNat d.digits, hdigits, ofDigits_append, ofDigits_zeros,
        List.length_replicate, Nat.add_zero]
    have hpoint : pointOf d - (significant d).length = zeros + d.exponent := by
      rw [pointOf, if_neg hpos.ne', hdigits, List.length_append, List.length_replicate]
      push_cast
      ring
    rw [hpoint, zpow_add₀ (by norm_num), zpow_natCast, magnitude, hvalue]
    push_cast
    ring

/-! ## Numerals with a point or an exponent -/

def IsNumeralChar (c : Char) : Prop := c.isDigit = true ∨ c ∈ ['-', '+', '.', 'e']

theorem isNumeralChar_of_mem_exponentText {layout : Layout} {exponent : ℤ} {c : Char}
    (h : c ∈ exponentText layout exponent) : IsNumeralChar c := by
  rw [exponentText, List.mem_append, List.mem_append, List.mem_cons] at h
  rcases h with ((rfl | hsign) | hzero) | hdigit
  · exact .inr (by decide)
  · refine .inr ?_
    split at hsign
    · rw [List.mem_singleton.1 hsign]
      decide
    split at hsign
    · rw [List.mem_singleton.1 hsign]
      decide
    · cases hsign
  · exact .inl (isDigits_zeros _ c hzero)
  · exact .inl (isDigits_ofNat _ c hdigit)

/-- The text is a numeral of the number, with digits behind a point or with an exponent. -/
def IsNumeral (s : Text) (v : ℚ) : Prop :=
  ∃ whole fraction behind exponent,
    s = whole ++ ((if fraction.isEmpty then [] else '.' :: fraction) ++ behind) ∧
    IsWhole whole ∧ IsDigits fraction ∧ (∀ c ∈ behind, IsNumeralChar c) ∧ EndsDigits behind ∧
    behind.head? ≠ some '.' ∧ takeExponent behind = (exponent, []) ∧
    (fraction ≠ [] ∨ exponent ≠ none) ∧
    (ofDigits (whole ++ fraction) : ℚ) * 10 ^ (exponent.getD 0 - fraction.length) = v

theorem isNumeral_point {whole fraction : Text} (hwhole : IsWhole whole)
    (hfraction : IsDigits fraction) (hne : fraction ≠ []) :
    IsNumeral (whole ++ '.' :: fraction)
      (ofDigits (whole ++ fraction) * 10 ^ (-(fraction.length : ℤ))) := by
  refine ⟨whole, fraction, [], none, ?_, hwhole, hfraction, by simp, endsDigits_nil, by simp, rfl,
    .inl hne, ?_⟩
  · simp [hne]
  · simp

section

variable {s : Text} {point : ℤ} (hs : IsSignificant s point)

include hs

/-- All digits stand behind the point. -/
theorem isNumeral_positional_low (hlow : point ≤ 0) :
    IsNumeral (positional s point) (ofDigits s * 10 ^ (point - s.length)) := by
  have hne : s ≠ [] := fun hnil => by
    have hone := hs.point_of_nil hnil
    omega
  have htext : positional s point = ['0'] ++ '.' :: (List.replicate (-point).toNat '0' ++ s) := by
    have hpoint : point.toNat = 0 := by omega
    simp [positional, hpoint, hne]
  have hwhole : IsWhole ['0'] := ⟨isDigits_zeros 1, List.cons_ne_nil _ _, fun _ => rfl⟩
  have hvalue : ofDigits (['0'] ++ (List.replicate (-point).toNat '0' ++ s)) = ofDigits s := by
    rw [← List.append_assoc]
    exact ofDigits_zeros_append ((-point).toNat + 1) s
  have hplaces : -((List.replicate (-point).toNat '0' ++ s).length : ℤ) = point - s.length := by
    rw [List.length_append, List.length_replicate]
    omega
  have h := isNumeral_point hwhole ((isDigits_zeros (-point).toNat).append hs.digits)
    (List.append_ne_nil_of_right_ne_nil _ hne)
  rwa [hvalue, hplaces, ← htext] at h

/-- The point stands among the digits. -/
theorem isNumeral_positional_inside (hpos : 0 < point) (hinside : point.toNat < s.length) :
    IsNumeral (positional s point) (ofDigits s * 10 ^ (point - s.length)) := by
  have htake : s.take point.toNat ≠ [] := by
    rw [Ne, ← List.length_eq_zero_iff, List.length_take]
    omega
  have hdrop : s.drop point.toNat ≠ [] := by
    rw [Ne, ← List.length_eq_zero_iff, List.length_drop]
    omega
  have htext : positional s point = s.take point.toNat ++ '.' :: s.drop point.toNat := by
    have hsign : (-point).toNat = 0 := by omega
    have hpad : point.toNat - s.length = 0 := by omega
    simp [positional, hsign, hpad, htake, hdrop]
  have hwhole : IsWhole (s.take point.toNat) := by
    refine ⟨fun c hc => hs.digits c (List.mem_of_mem_take hc), htake, fun hzero => ?_⟩
    rw [List.head?_take, if_neg (by omega)] at hzero
    exact absurd hzero hs.head_ne_zero
  have hplaces : -((s.drop point.toNat).length : ℤ) = point - s.length := by
    rw [List.length_drop]
    omega
  have h := isNumeral_point hwhole (fun c hc => hs.digits c (List.mem_of_mem_drop hc)) hdrop
  rwa [List.take_append_drop, hplaces, ← htext] at h

/-- All digits stand in front of the point. -/
theorem isNumeral_positional_high (hpos : 0 < point) (hhigh : s.length ≤ point.toNat) :
    IsNumeral (positional s point) (ofDigits s * 10 ^ (point - s.length)) := by
  have hne : s ++ List.replicate (point.toNat - s.length) '0' ≠ [] := by
    rw [Ne, ← List.length_eq_zero_iff, List.length_append, List.length_replicate]
    omega
  have htext : positional s point =
      (s ++ List.replicate (point.toNat - s.length) '0') ++ '.' :: ['0'] := by
    have hsign : (-point).toNat = 0 := by omega
    rw [positional, List.take_of_length_le hhigh, List.drop_of_length_le hhigh, hsign]
    simp only [List.isEmpty_iff, hne, ↓reduceIte]
    rfl
  have hwhole : IsWhole (s ++ List.replicate (point.toNat - s.length) '0') := by
    refine ⟨hs.digits.append (isDigits_zeros _), hne, fun hzero => ?_⟩
    cases s with
    | nil =>
      rw [hs.point_of_nil rfl]
      rfl
    | cons c s => exact absurd hzero hs.head_ne_zero
  have hvalue : (ofDigits (s ++ List.replicate (point.toNat - s.length) '0' ++ ['0']) : ℚ) *
      10 ^ (-((['0'] : Text).length : ℤ)) = ofDigits s * 10 ^ (point - s.length) := by
    have hplaces : point - s.length = (point.toNat - s.length : ℕ) := by omega
    have hdigit : ofDigits ['0'] = 0 := rfl
    rw [ofDigits_append, ofDigits_append, ofDigits_zeros, hdigit, hplaces, zpow_natCast]
    push_cast
    simp
  have h := isNumeral_point hwhole (isDigits_zeros 1) (List.cons_ne_nil _ _)
  exact htext ▸ hvalue ▸ h

theorem isNumeral_scientific (layout : Layout) (hne : s ≠ []) :
    IsNumeral (scientific layout s point) (ofDigits s * 10 ^ (point - s.length)) := by
  cases s with
  | nil => exact absurd rfl hne
  | cons c s =>
    have hwhole : IsWhole [c] :=
      ⟨fun d hd => hs.digits d (List.mem_singleton.1 hd ▸ List.mem_cons_self),
        List.cons_ne_nil _ _, fun hzero => absurd hzero hs.head_ne_zero⟩
    have hends : EndsDigits (exponentText layout (point - 1)) := fun c hc => by
      cases hc
      rfl
    refine ⟨[c], s, exponentText layout (point - 1), some (point - 1), ?_, hwhole,
      fun d hd => hs.digits d (List.mem_cons_of_mem _ hd),
      fun d => isNumeralChar_of_mem_exponentText, hends, ?_, takeExponent_exponentText layout _,
      .inr (Option.some_ne_none _), ?_⟩
    · simp [scientific]
    · intro h
      cases h
    · rw [List.singleton_append, List.length_cons, Option.getD_some]
      congr 2
      push_cast
      ring

end

theorem IsNumeral.isNumeralChar {s : Text} {v : ℚ} (hs : IsNumeral s v) {c : Char} (hc : c ∈ s) :
    IsNumeralChar c := by
  obtain ⟨whole, fraction, behind, exponent, rfl, hwhole, hfraction, hbehind, -⟩ := hs
  rw [List.mem_append, List.mem_append] at hc
  rcases hc with hc | hc | hc
  · exact .inl (hwhole.digits c hc)
  · split at hc
    · cases hc
    rcases List.mem_cons.1 hc with rfl | hc
    · exact .inr (by decide)
    · exact .inl (hfraction c hc)
  · exact hbehind c hc

theorem floatText_of_isFinite {layout : Layout} {x : Float} (hx : x.isFinite = true) :
    floatText layout x = text layout (shortest x) := by
  have hparts : x.toModel.unpack.isFinite = true := hx
  have hnumber : x.isNaN = false := by
    have hstatus : x.isNaN = x.toModel.unpack.isNaN := rfl
    rw [hstatus]
    cases hunpack : x.toModel.unpack with
    | notANumber =>
      rw [hunpack] at hparts
      cases hparts
    | _ => rfl
  rw [floatText, hnumber, if_neg Bool.false_ne_true]

/-- The text of a decimal without its sign is a numeral of its magnitude. -/
theorem isNumeral_text {layout : Layout} (hleast : layout.leastPoint ≤ 1)
    (hgreatest : 1 ≤ layout.greatestPoint) (d : Decimal) :
    ∃ s, text layout d = (if d.negative then ['-'] else []) ++ s ∧ IsNumeral s d.magnitude := by
  have hs := isSignificant d
  have htext : text layout d = (if d.negative then ['-'] else []) ++
      if layout.leastPoint ≤ pointOf d && pointOf d ≤ layout.greatestPoint then
        positional (significant d) (pointOf d)
      else scientific layout (significant d) (pointOf d) := rfl
  refine ⟨_, htext, ?_⟩
  rw [← magnitude_significant d]
  split
  · rcases Int.lt_or_le 0 (pointOf d) with hpos | hlow
    · rcases Nat.lt_or_ge (pointOf d).toNat (significant d).length with hinside | hhigh
      · exact isNumeral_positional_inside hs hpos hinside
      · exact isNumeral_positional_high hs hpos hhigh
    · exact isNumeral_positional_low hs hlow
  · next hrange =>
    refine isNumeral_scientific hs layout fun hnil => ?_
    rw [hs.point_of_nil hnil] at hrange
    simp [hleast, hgreatest] at hrange

end GrowthEstimate.Decimal

namespace GrowthEstimate.Json

open Decimal

/-! ## Numerals as tokens -/

theorem takeNumber?_eq {word s t u rest whole fraction : Text} {negative : Bool}
    {exponent : Option ℤ} (hminus : takeMinus word = (negative, s)) (hwhole : takeWhole s = (whole, t))
    (hfraction : takeFraction t = (fraction, u)) (hexponent : takeExponent u = (exponent, rest))
    (hne : whole ≠ []) :
    takeNumber? word =
      if fraction.isEmpty && exponent.isNone then some (.whole negative whole, rest)
      else some (.scalar (.float (Decimal.toFloat
        ⟨negative, ofDigits (whole ++ fraction), exponent.getD 0 - fraction.length⟩)), rest) := by
  simp only [takeNumber?, hminus, hwhole, hfraction, hexponent, List.isEmpty_iff, hne]
  rfl

theorem head?_append_of_isWhole {s : Text} (hs : IsWhole s) (rest : Text) :
    (s ++ rest).head? ≠ some '-' := by
  rw [List.head?_append_of_ne_nil _ hs.ne_nil]
  intro h
  cases hs.digits '-' (List.mem_of_mem_head? h)

theorem takeNumber?_isNumeral {s : Text} {v : ℚ} (hs : IsNumeral s v) {d : Decimal}
    (hv : d.magnitude = v) :
    takeNumber? ((if d.negative then ['-'] else []) ++ s) =
      some (.scalar (.float d.toFloat), []) := by
  obtain ⟨whole, fraction, behind, exponent, rfl, hwhole, hfraction, -, hbehind, hpoint, hexponent,
    hsome, hvalue⟩ := hs
  have hfirst : takeFraction ((if fraction.isEmpty then [] else '.' :: fraction) ++ behind) =
      (fraction, behind) := by
    cases fraction with
    | nil => exact takeFraction_none hpoint
    | cons c fraction => exact takeFraction_point hfraction (List.cons_ne_nil _ _) hbehind
  have hends : EndsDigits ((if fraction.isEmpty then [] else '.' :: fraction) ++ behind) := by
    cases fraction with
    | nil => exact hbehind
    | cons c fraction =>
      intro d hd
      cases hd
      rfl
  have hread : Decimal.toFloat
      ⟨d.negative, ofDigits (whole ++ fraction), exponent.getD 0 - fraction.length⟩ = d.toFloat :=
    toFloat_congr rfl (hvalue.trans hv.symm)
  rw [takeNumber?_eq (takeMinus_sign (head?_append_of_isWhole hwhole _) d.negative)
    (takeWhole_of_isWhole hwhole hends) hfirst hexponent hwhole.ne_nil, hread, if_neg]
  rw [Bool.and_eq_true, List.isEmpty_iff, Option.isNone_iff_eq_none]
  exact fun hnone => hsome.elim (absurd hnone.1) (absurd hnone.2)

/-- No numeral is one of the named values. -/
theorem takeNamed?_of_isWhole {s : Text} (hs : IsWhole s) (negative : Bool) (rest : Text) :
    takeNamed? ((if negative then ['-'] else []) ++ (s ++ rest)) = none := by
  obtain ⟨c, s, rfl⟩ := List.exists_cons_of_ne_nil hs.ne_nil
  have hc : c.isDigit = true := hs.digits c List.mem_cons_self
  have hne : ∀ d : Char, d.isDigit = false → d ≠ c := by
    rintro d hd rfl
    rw [hd] at hc
    cases hc
  cases negative <;>
    simp [takeNamed?, namedValues, Text.after?, hne 'n' rfl, hne 't' rfl, hne 'f' rfl, hne 'N' rfl,
      hne 'I' rfl, hne '-' rfl]

/-! ## Numbers as words -/

theorem isWhole_ofNat (n : Nat) : IsWhole (ofNat n) := by
  refine ⟨isDigits_ofNat n, ofNat_ne_nil n, fun hzero => ?_⟩
  rcases Nat.eq_zero_or_pos n with rfl | hpos
  · rfl
  · exact absurd hzero (head?_ofNat hpos)

theorem ofInt_eq (n : ℤ) :
    ofInt n = (if decide (n < 0) then ['-'] else []) ++ (ofNat n.natAbs ++ []) := by
  cases n with
  | ofNat n => simp [ofInt]
  | negSucc n => simp [ofInt]

theorem signed_natAbs (n : ℤ) : signed (decide (n < 0)) (ofNat n.natAbs) = n := by
  rw [signed, ofDigits_ofNat]
  rcases Int.lt_or_le n 0 with h | h
  · rw [if_pos (decide_eq_true h)]
    omega
  · rw [if_neg (by simpa using h)]
    omega

/-- A whole number is read with its sign and its digits. -/
theorem ofWord_ofInt (n : ℤ) :
    ofWord (ofInt n) = [.whole (decide (n < 0)) (ofNat n.natAbs)] := by
  have hwhole := isWhole_ofNat n.natAbs
  have hnumber : takeNumber? (ofInt n) = some (.whole (decide (n < 0)) (ofNat n.natAbs), []) := by
    rw [ofInt_eq, takeNumber?_eq (takeMinus_sign (head?_append_of_isWhole hwhole []) _)
      (takeWhole_of_isWhole hwhole endsDigits_nil) rfl rfl hwhole.ne_nil]
    rfl
  rw [ofWord, hnumber, ofInt_eq, takeNamed?_of_isWhole hwhole]
  rfl

/-- A finite double is read as it was. -/
theorem ofWord_floatText {layout : Layout} (hleast : layout.leastPoint ≤ 1)
    (hgreatest : 1 ≤ layout.greatestPoint) {x : Float} (hx : x.isFinite = true) :
    ofWord (floatText layout x) = [.scalar (.float x)] := by
  obtain ⟨s, htext, hs⟩ := isNumeral_text hleast hgreatest (shortest x)
  have hnumber := takeNumber?_isNumeral hs rfl
  rw [toFloat_shortest hx] at hnumber
  obtain ⟨whole, fraction, behind, exponent, rfl, hwhole, -⟩ := hs
  rw [floatText_of_isFinite hx, htext, ofWord, hnumber, takeNamed?_of_isWhole hwhole]
  rfl

theorem isNumeralChar_of_mem_sign {negative : Bool} {c : Char}
    (h : c ∈ (if negative then ['-'] else [] : Text)) : IsNumeralChar c := by
  split at h
  · rw [List.mem_singleton.1 h]
    exact .inr (by decide)
  · cases h

theorem isNumeralChar_of_mem_ofInt {n : ℤ} {c : Char} (h : c ∈ ofInt n) : IsNumeralChar c := by
  rw [ofInt_eq, List.append_nil, List.mem_append] at h
  rcases h with hsign | hdigit
  · exact isNumeralChar_of_mem_sign hsign
  · exact .inl (isDigits_ofNat _ c hdigit)

theorem isNumeralChar_of_mem_floatText {layout : Layout} (hleast : layout.leastPoint ≤ 1)
    (hgreatest : 1 ≤ layout.greatestPoint) {x : Float} (hx : x.isFinite = true) {c : Char}
    (h : c ∈ floatText layout x) : IsNumeralChar c := by
  obtain ⟨s, htext, hs⟩ := isNumeral_text hleast hgreatest (shortest x)
  rw [floatText_of_isFinite hx, htext, List.mem_append] at h
  rcases h with hsign | hc
  · exact isNumeralChar_of_mem_sign hsign
  · exact hs.isNumeralChar hc

end GrowthEstimate.Json
