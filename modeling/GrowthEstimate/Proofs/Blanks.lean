import GrowthEstimate.Text.Lowercase
import GrowthEstimate.Text.Word
import Mathlib.Data.List.TakeWhile

/-!
# Blanks around a text

A trim takes the blanks off both ends of a text and nothing else, so a text is its trim with
blanks on either side.

* `mem_blanks_of_isBlank`: the blanks are 29 characters, and what is checked of each of them holds
  of every blank;
* `trim_margins`: blanks put around a text are trimmed off again;
* `exists_dropped_end`, `exists_margins`: a text is what a trim leaves, with what it takes off;
* `head_trim`: a trimmed text does not start with a blank.
-/

namespace GrowthEstimate.Text

/-! ## The blanks -/

def blanks : List Char :=
  (List.range' 0x09 5 ++ List.range' 0x1C 5 ++ [0x85, 0xA0, 0x1680] ++ List.range' 0x2000 11
    ++ [0x2028, 0x2029, 0x202F, 0x205F, 0x3000]).map Char.ofNat

theorem mem_blanks_of_isBlank {c : Char} (h : isBlank c = true) : c ∈ blanks := by
  refine List.mem_map.2 ⟨c.toNat, ?_, Char.ofNat_toNat c⟩
  simp only [isBlank, Bool.or_eq_true, Bool.and_eq_true, decide_eq_true_eq, beq_iff_eq] at h
  simp only [List.mem_append, List.mem_range'_1, List.mem_cons, List.not_mem_nil, or_false]
  omega

theorem isWordChar_of_isBlank {c : Char} (h : isBlank c = true) : isWordChar c = false := by
  have every : (blanks.all fun c => !isWordChar c) = true := by decide +kernel
  simpa using List.all_eq_true.1 every c (mem_blanks_of_isBlank h)

theorem lowerChar_of_isBlank {c : Char} (h : isBlank c = true) : lowerChar c = [c] := by
  have every : (blanks.all fun c => lowerChar c == [c]) = true := by decide +kernel
  simpa using List.all_eq_true.1 every c (mem_blanks_of_isBlank h)

theorem lowercase_of_blank {pad : Text} (h : ∀ c ∈ pad, isBlank c = true) :
    lowercase pad = pad :=
  lowercase_eq_self fun c hc => lowerChar_of_isBlank (h c hc)

/-! ## Trims -/

theorem dropEndWhile_append {p : Char → Bool} {pad : Text} (h : ∀ c ∈ pad, p c = true)
    (s : Text) : dropEndWhile p (s ++ pad) = dropEndWhile p s := by
  have hpad : pad.reverse.dropWhile p = [] :=
    List.dropWhile_eq_nil_iff.2 fun c hc => h c (List.mem_reverse.1 hc)
  simp [dropEndWhile, List.dropWhile_append, hpad]

theorem trim_margins {pad pad' : Text} (hpad : ∀ c ∈ pad, isBlank c = true)
    (hpad' : ∀ c ∈ pad', isBlank c = true) (s : Text) : trim (pad ++ s ++ pad') = trim s := by
  have hstart : trimStart (s ++ pad') = trimStart s ++ pad'
      ∨ trimStart s = [] ∧ trimStart (s ++ pad') = [] := by
    have hpad'' : pad'.dropWhile isBlank = [] := List.dropWhile_eq_nil_iff.2 hpad'
    rw [trimStart, trimStart, List.dropWhile_append, hpad'']
    by_cases hnil : s.dropWhile isBlank = []
    · exact Or.inr ⟨hnil, by simp [hnil]⟩
    · exact Or.inl (by simp [hnil])
  rw [List.append_assoc, trim, trim, trimStart_append_of_blank hpad]
  rcases hstart with hrest | ⟨hnil, hnil'⟩
  · rw [hrest]
    exact dropEndWhile_append hpad' (trimStart s)
  · rw [hnil, hnil']

theorem exists_dropped_end (p : Char → Bool) (s : Text) :
    ∃ pad, (∀ c ∈ pad, p c = true) ∧ s = dropEndWhile p s ++ pad := by
  refine ⟨(s.reverse.takeWhile p).reverse, ?_, ?_⟩
  · intro c hc
    exact List.all_eq_true.1 List.all_takeWhile c (List.mem_reverse.1 hc)
  · rw [dropEndWhile, ← List.reverse_append, List.takeWhile_append_dropWhile, List.reverse_reverse]

theorem getLast?_dropEndWhile {p : Char → Bool} {s : Text} {c : Char}
    (h : (dropEndWhile p s).getLast? = some c) : p c = false := by
  have hnot := List.head?_dropWhile_not p s.reverse
  rw [dropEndWhile, List.getLast?_reverse] at h
  rw [h] at hnot
  simpa using hnot

/-- A text is its trim with blanks on either side. -/
theorem exists_margins (s : Text) :
    ∃ pad pad' : Text, (∀ c ∈ pad, isBlank c = true) ∧ (∀ c ∈ pad', isBlank c = true)
      ∧ s = pad ++ trim s ++ pad' := by
  obtain ⟨pad', hpad', hstart⟩ := exists_dropped_end isBlank (trimStart s)
  refine ⟨s.takeWhile isBlank, pad', ?_, hpad', ?_⟩
  · intro c hc
    exact List.all_eq_true.1 List.all_takeWhile c hc
  · calc s = s.takeWhile isBlank ++ trimStart s := List.takeWhile_append_dropWhile.symm
      _ = s.takeWhile isBlank ++ (trim s ++ pad') := congrArg _ hstart
      _ = s.takeWhile isBlank ++ trim s ++ pad' := (List.append_assoc ..).symm

/-- What is trimmed to nothing is nothing but blanks. -/
theorem trim_eq_nil_iff {s : Text} : trim s = [] ↔ ∀ c ∈ s, isBlank c = true := by
  constructor
  · intro h
    obtain ⟨pad, pad', hpad, hpad', hs⟩ := exists_margins s
    rw [h, List.append_nil] at hs
    rw [hs]
    exact List.forall_mem_append.2 ⟨hpad, hpad'⟩
  · intro h
    have hnone : ∀ c ∈ ([] : Text), isBlank c = true := by simp
    have hmargins := trim_margins h hnone []
    rwa [List.append_nil, List.append_nil] at hmargins

@[simp] theorem trim_trim (s : Text) : trim (trim s) = trim s := by
  obtain ⟨pad, pad', hpad, hpad', hs⟩ := exists_margins s
  have hmargins := trim_margins hpad hpad' (trim s)
  rw [← hs] at hmargins
  exact hmargins.symm

theorem count_of_blank {c : Char} (h : isBlank c = false) {pad : Text}
    (hpad : ∀ d ∈ pad, isBlank d = true) : pad.count c = 0 := by
  apply List.count_eq_zero.2
  intro hc
  rw [hpad c hc] at h
  cases h

theorem count_trim {c : Char} (h : isBlank c = false) (s : Text) :
    (trim s).count c = s.count c := by
  obtain ⟨pad, pad', hpad, hpad', hs⟩ := exists_margins s
  have hcount := congrArg (List.count c) hs
  rw [List.count_append, List.count_append, count_of_blank h hpad, count_of_blank h hpad'] at hcount
  omega

theorem head_trim {s rest : Text} {c : Char} (h : trim s = c :: rest) : isBlank c = false := by
  have hstart : (trimStart s).head? = some c := by
    obtain ⟨pad, hpad⟩ : trim s <+: trimStart s := by
      rw [← List.reverse_suffix]
      simpa [trim, trimEnd, dropEndWhile] using List.dropWhile_suffix isBlank
    rw [← hpad, h]
    rfl
  have hnot := List.head?_dropWhile_not isBlank s
  rw [trimStart] at hstart
  simpa [hstart] using hnot

end GrowthEstimate.Text
