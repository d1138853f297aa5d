import Mathlib.Data.List.Nodup
import GrowthEstimate.Analysis

/-!
# A character for the halves

A half is no part of a word, no blank and no end of a line, it has no other case, and it equals no
character.  The character that stands for the halves of a source text is like that too: it belongs
to no class of characters, and the text does not hold it.

* `standIn_notMem`: the text does not hold it, however long the text may be that is analysed;
* `isNeutral_standIn`: it belongs to no class.
-/

namespace GrowthEstimate

/-- A character that is in none of the classes by which a source text is read. -/
structure Text.IsNeutral (c : Char) : Prop where
  beyond_ascii : 0x80 ≤ c.toNat
  not_word : isWordChar c = false
  not_blank : isBlank c = false
  not_lineEnd : isLineEnd c = false
  own_case : lowerChar c = [c]

namespace CodePoints

open Text (IsNeutral isWordChar isBlank isLineEnd lowerChar wordRanges)

def unassignedEnd : Nat := 0xE0000

/-! ## A character that is not in the string -/

theorem freshFrom_eq (s : CodePoints) (count n : Nat) :
    ∃ i ≤ count, freshFrom s count n = Char.ofNat (n + i) := by
  induction count generalizing n with
  | zero => exact ⟨0, Nat.le_refl 0, rfl⟩
  | succ count ih =>
    rw [freshFrom]
    split
    · obtain ⟨i, hi, hfresh⟩ := ih (n + 1)
      exact ⟨i + 1, Nat.succ_le_succ hi, by rw [hfresh, Nat.add_assoc, Nat.add_comm 1]⟩
    · exact ⟨0, Nat.zero_le _, rfl⟩

/-- When the last resort is in the string, so are all the characters in front of it. -/
theorem mem_of_freshFrom_mem {s : CodePoints} {count n : Nat}
    (h : .char (freshFrom s count n) ∈ s) {i : Nat} (hi : i ≤ count) :
    .char (Char.ofNat (n + i)) ∈ s := by
  induction count generalizing n i with
  | zero =>
    obtain rfl : i = 0 := Nat.le_zero.1 hi
    exact h
  | succ count ih =>
    rw [freshFrom] at h
    split at h
    · next hfirst =>
      cases i with
      | zero => simpa using hfirst
      | succ i =>
        have hmem := ih h (Nat.le_of_succ_le_succ hi)
        rwa [Nat.add_assoc, Nat.add_comm 1] at hmem
    · next hfirst => exact absurd (by simpa using h) hfirst

theorem toNat_ofNat_unassigned {i : Nat} (h : unassignedStart + i < unassignedEnd) :
    (Char.ofNat (unassignedStart + i)).toNat = unassignedStart + i := by
  have hvalid : (unassignedStart + i).isValidChar := by
    rw [Nat.isValidChar]
    simp only [unassignedStart, unassignedEnd] at h ⊢
    omega
  rw [Char.ofNat, dif_pos hvalid]
  rfl

/-- One more character than the string is long cannot all be in it. -/
theorem standIn_notMem {s : CodePoints} (h : s.length ≤ hardLimit) : .char s.standIn ∉ s := by
  intro hmem
  have hbound : unassignedStart + s.length < unassignedEnd := by
    simp only [unassignedStart, unassignedEnd, hardLimit] at h ⊢
    omega
  let passed := (List.range (s.length + 1)).map fun i =>
    CodePoint.char (Char.ofNat (unassignedStart + i))
  have hnodup : passed.Nodup := by
    refine List.nodup_range.map_on fun i hi j hj hij => ?_
    rw [List.mem_range] at hi hj
    have hnumber := congrArg CodePoint.toNat hij
    simp only [CodePoint.toNat, toNat_ofNat_unassigned (i := i) (by omega),
      toNat_ofNat_unassigned (i := j) (by omega)] at hnumber
    omega
  have hsubset : passed ⊆ s := by
    intro p hp
    obtain ⟨i, hi, rfl⟩ := List.mem_map.1 hp
    exact mem_of_freshFrom_mem hmem (Nat.le_of_lt_succ (List.mem_range.1 hi))
  have hlength := hnodup.length_le_of_subset hsubset
  rw [List.length_map, List.length_range] at hlength
  omega

/-! ## Its classes -/

theorem isAlphanum_of_beyond_ascii {c : Char} (h : 0x80 ≤ c.toNat) : c.isAlphanum = false := by
  have hle (n : UInt32) (hn : n.toNat < 0x80) : ¬ c.val ≤ n := fun hle =>
    Nat.not_lt.2 (Nat.le_trans h (UInt32.le_iff_toNat_le.1 hle)) hn
  have hupper : c.isUpper = false :=
    decide_eq_false fun hrange => hle 90 (by decide) hrange.2
  have hlower : c.isLower = false :=
    Bool.and_eq_false_iff.2 (.inr (decide_eq_false (hle 122 (by decide))))
  have hdigit : c.isDigit = false :=
    Bool.and_eq_false_iff.2 (.inr (decide_eq_false (hle 57 (by decide))))
  have halpha : c.isAlpha = false := Bool.or_eq_false_iff.2 ⟨hupper, hlower⟩
  exact Bool.or_eq_false_iff.2 ⟨halpha, hdigit⟩

theorem toLower_of_beyond_ascii {c : Char} (h : 0x80 ≤ c.toNat) : c.toLower = c := by
  refine dif_neg ?_
  rintro ⟨-, hle⟩
  have hlast : c.toNat ≤ 0x5A := UInt32.le_iff_toNat_le.1 hle
  omega

theorem ne_of_toNat_lt {c d : Char} (h : d.toNat < c.toNat) : c ≠ d := by
  rintro rfl
  exact Nat.lt_irrefl _ h

theorem isWordChar_of_unassigned {c : Char} (h : unassignedStart ≤ c.toNat) :
    isWordChar c = false := by
  have hlast : ∀ r ∈ wordRanges, r.2 < unassignedStart := by decide +kernel
  have hranges : wordRanges.contain c = false := by
    rw [Text.Ranges.contain, List.any_eq_false]
    intro r hr
    have hr := hlast r hr
    simp only [Bool.and_eq_true, decide_eq_true_eq, not_and]
    omega
  have hascii : 0x80 ≤ c.toNat := Nat.le_trans (by decide) h
  have hscore : c ≠ '_' := ne_of_toNat_lt (Nat.lt_of_lt_of_le (by decide) h)
  simp [isWordChar, isAlphanum_of_beyond_ascii hascii, hscore, hranges]

theorem isNeutral_of_unassigned {c : Char} (h : unassignedStart ≤ c.toNat) : IsNeutral c where
  beyond_ascii := Nat.le_trans (by decide) h
  not_word := isWordChar_of_unassigned h
  not_blank := by
    have h : 0x40000 ≤ c.toNat := h
    simp only [isBlank, Bool.or_eq_false_iff, Bool.and_eq_false_iff, beq_eq_false_iff_ne,
      decide_eq_false_iff_not]
    omega
  not_lineEnd := by
    have h : 0x40000 ≤ c.toNat := h
    simp only [isLineEnd, Bool.or_eq_false_iff, Bool.and_eq_false_iff, beq_eq_false_iff_ne,
      decide_eq_false_iff_not]
    omega
  own_case := by
    have hkelvin : c ≠ '\u212A' := ne_of_toNat_lt (Nat.lt_of_lt_of_le (by decide) h)
    have hdotted : c ≠ '\u0130' := ne_of_toNat_lt (Nat.lt_of_lt_of_le (by decide) h)
    simp [lowerChar, hkelvin, hdotted,
      toLower_of_beyond_ascii (Nat.le_trans (by decide : 0x80 ≤ unassignedStart) h)]

theorem isNeutral_standIn {s : CodePoints} (h : s.length ≤ hardLimit) : IsNeutral s.standIn := by
  obtain ⟨i, hi, hstandIn⟩ := freshFrom_eq s s.length unassignedStart
  have hbound : unassignedStart + i < unassignedEnd := by
    simp only [unassignedStart, unassignedEnd, hardLimit] at h ⊢
    omega
  rw [standIn, hstandIn]
  refine isNeutral_of_unassigned ?_
  rw [toNat_ofNat_unassigned hbound]
  exact Nat.le_add_right _ _

end CodePoints

end GrowthEstimate
