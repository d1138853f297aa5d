import GrowthEstimate.Proofs.Blanks
import GrowthEstimate.Proofs.LineSplitting
import GrowthEstimate.Text.Search
import Mathlib.Algebra.GroupWithZero.Nat

/-!
# Occurrences in the lines of a text

A phrase starts and ends with no blank and stays on one line, like every token that is looked for.
Its occurrences in joined lines are those in the single lines, and the blanks around a line neither
hold one nor take part in one.

* `countFrom_append`: two parts are counted apart when no occurrence reaches from one to the other;
* `countOccurrences_le_of_infix`: a part of a text holds no more occurrences than the text;
* `countOccurrences_around`: what a token can neither start nor end in changes no count;
* `countOccurrences_joinLines`: joined lines are counted line by line;
* `countOccurrences_trim`: the blanks around a line change no count;
* `occursIn_eq_of_inked`, `occursIn_lowercase_eq_of_inked`: what occurs in joined lines is known
  from the lines without the blanks around them, those of blanks alone left out.
-/

namespace GrowthEstimate.Text

/-! ## Counting in two parts -/

/-- Whether every occurrence of the token that starts in the first part ends in it. -/
def StaysWithin (token s t : Text) : Prop :=
  ∀ u, u <:+ s → u ≠ [] → token <+: u ++ t → token <+: u

theorem StaysWithin.tail {token s t : Text} {c : Char} (h : StaysWithin token (c :: s) t) :
    StaysWithin token s t :=
  fun u hu => h u (hu.trans (List.suffix_cons c s))

theorem countFrom_append {token s t : Text} (h : StaysWithin token s t) (skip found : Nat)
    (hskip : skip ≤ s.length) :
    countFrom token skip found (s ++ t) = countFrom token skip found s + countFrom token 0 0 t := by
  induction s generalizing skip found with
  | nil =>
    obtain rfl : skip = 0 := Nat.le_zero.1 hskip
    rw [List.nil_append, countFrom_acc]
    rfl
  | cons c s ih =>
    cases skip with
    | succ skip =>
      rw [List.cons_append, countFrom, countFrom]
      exact ih h.tail skip found (Nat.le_of_succ_le_succ hskip)
    | zero =>
      have hstart : token.isPrefixOf (c :: (s ++ t)) = token.isPrefixOf (c :: s) := by
        rw [Bool.eq_iff_iff, List.isPrefixOf_iff_prefix, List.isPrefixOf_iff_prefix]
        constructor
        · exact h (c :: s) (List.suffix_refl _) (List.cons_ne_nil c s)
        · intro hstarts
          exact hstarts.trans (List.prefix_append (c :: s) t)
      rw [List.cons_append, countFrom, countFrom, hstart]
      split
      · next hstarts =>
        have hlength := (List.isPrefixOf_iff_prefix.1 hstarts).length_le
        rw [List.length_cons] at hlength
        exact ih h.tail _ _ (by omega)
      · exact ih h.tail 0 found (Nat.zero_le _)

theorem countOccurrences_append {token s t : Text} (h : StaysWithin token s t) :
    countOccurrences token (s ++ t) = countOccurrences token s + countOccurrences token t :=
  countFrom_append h 0 0 (Nat.zero_le _)

theorem occursIn_iff_count_pos {token : Text} (hne : token ≠ []) {s : Text} :
    occursIn token s = true ↔ 0 < countOccurrences token s := by
  induction s with
  | nil => simp [occursIn, countOccurrences, countFrom, hne]
  | cons c s ih =>
    rw [occursIn, Bool.or_eq_true, ih, countOccurrences, countOccurrences, countFrom]
    split
    · next hstarts =>
      have hfound := countFrom_acc token s (token.length - 1) (0 + 1)
      simp only [hstarts, true_or, true_iff]
      omega
    · next hstarts => simp [hstarts]

theorem anyOccursIn_congr {tokens : List Text} {s t : Text}
    (h : ∀ token ∈ tokens, occursIn token s = occursIn token t) :
    anyOccursIn tokens s = anyOccursIn tokens t := by
  rw [anyOccursIn, anyOccursIn, Bool.eq_iff_iff, List.any_eq_true, List.any_eq_true]
  refine exists_congr fun token => and_congr_right fun htoken => ?_
  rw [h token htoken]

/-- What starts in the first part and does not end in it goes on with the second. -/
theorem exists_across {token u t : Text} (h : token <+: u ++ t) (hnot : ¬ token <+: u) :
    ∃ c rest, token = u ++ c :: rest ∧ c :: rest <+: t := by
  have hu : u <+: token := by
    rcases Nat.le_total token.length u.length with hle | hle
    · exact absurd (List.prefix_of_prefix_length_le h (List.prefix_append u t) hle) hnot
    · exact List.prefix_of_prefix_length_le (List.prefix_append u t) h hle
  obtain ⟨rest, rfl⟩ := hu
  cases rest with
  | nil => exact absurd (by simp) hnot
  | cons c rest => exact ⟨c, rest, rfl, (List.prefix_append_right_inj u).1 h⟩

theorem staysWithin_of_not_mem {token : Text} {c : Char} (h : c ∉ token) (s t : Text) :
    StaysWithin token s (c :: t) := by
  intro u _ _ hstarts
  by_cases hin : token <+: u
  · exact hin
  · obtain ⟨d, rest, rfl, hrest⟩ := exists_across hstarts hin
    obtain rfl : d = c := (List.cons_prefix_cons.1 hrest).1
    exact absurd (by simp) h

/-! ## Counting in a part of a text -/

/-- With fewer characters left to skip, as many occurrences are found, and at most one more. -/
theorem countFrom_skip {token : Text} {few many : Nat} (h : few ≤ many)
    (hmany : many ≤ token.length - 1) (s : Text) :
    countFrom token many 0 s ≤ countFrom token few 0 s
      ∧ countFrom token few 0 s ≤ countFrom token many 0 s + 1 := by
  induction s generalizing few many with
  | nil => simp [countFrom]
  | cons c s ih =>
    cases few with
    | succ few =>
      obtain ⟨many, rfl⟩ : ∃ k, many = k + 1 := ⟨many - 1, by omega⟩
      exact ih (Nat.le_of_succ_le_succ h) (by omega)
    | zero =>
      cases many with
      | zero => exact ⟨Nat.le_refl _, Nat.le_succ _⟩
      | succ many =>
        rw [countFrom, countFrom]
        split
        · -- an occurrence starts here: it may cost the longer scan one, not both
          obtain ⟨hle, hsucc⟩ := ih (show many ≤ token.length - 1 by omega) (Nat.le_refl _)
          rw [countFrom_acc token s (token.length - 1)]
          omega
        · exact ih (Nat.zero_le many) (by omega)

theorem countOccurrences_cons_le (token : Text) (c : Char) (s : Text) :
    countOccurrences token s ≤ countOccurrences token (c :: s) := by
  rw [countOccurrences, countOccurrences, countFrom]
  split
  · obtain ⟨-, hsucc⟩ := countFrom_skip (Nat.zero_le (token.length - 1)) (Nat.le_refl _) s
    rw [countFrom_acc token s (token.length - 1)]
    omega
  · exact Nat.le_refl _

theorem countFrom_append_le (token s t : Text) (skip : Nat) :
    countFrom token skip 0 s ≤ countFrom token skip 0 (s ++ t) := by
  induction s generalizing skip with
  | nil => exact Nat.zero_le _
  | cons c s ih =>
    cases skip with
    | succ skip => exact ih skip
    | zero =>
      have hwhole := ih (token.length - 1)
      rw [List.cons_append, countFrom, countFrom]
      by_cases hpart : token.isPrefixOf (c :: s) = true
      · have hstarts : token.isPrefixOf (c :: (s ++ t)) = true :=
          List.isPrefixOf_iff_prefix.2
            ((List.isPrefixOf_iff_prefix.1 hpart).trans (List.prefix_append (c :: s) t))
        rw [if_pos hpart, if_pos hstarts, countFrom_acc, countFrom_acc token (s ++ t)]
        omega
      · rw [if_neg hpart]
        split
        · obtain ⟨-, hsucc⟩ := countFrom_skip (Nat.zero_le (token.length - 1)) (Nat.le_refl _) s
          rw [countFrom_acc token (s ++ t)]
          omega
        · exact ih 0

/-- A part of a text holds no more occurrences than the text.  The token may overlap itself, so that
the two counts from the left do not find the same occurrences. -/
theorem countOccurrences_le_of_infix {s t : Text} (h : s <:+: t) (token : Text) :
    countOccurrences token s ≤ countOccurrences token t := by
  obtain ⟨before, after, rfl⟩ := h
  rw [List.append_assoc]
  induction before with
  | nil => exact countFrom_append_le token s after 0
  | cons c before ih => exact Nat.le_trans ih (countOccurrences_cons_le token c _)

/-! ## Texts around a token -/

section

variable {token pad pad' : Text}

/-- A token does not start in a text that its first character is no part of. -/
theorem staysWithin_front (hne : token ≠ []) (hpad : ∀ c ∈ token.head?, c ∉ pad) (t : Text) :
    StaysWithin token pad t := by
  intro u hu hu' hstarts
  obtain ⟨c, rest, rfl⟩ := List.exists_cons_of_ne_nil hne
  obtain ⟨d, u, rfl⟩ := List.exists_cons_of_ne_nil hu'
  obtain rfl : c = d := (List.cons_prefix_cons.1 hstarts).1
  exact absurd (hu.subset List.mem_cons_self) (hpad c rfl)

/-- A token does not end in a text that its last character is no part of. -/
theorem staysWithin_behind (hpad : ∀ c ∈ token.getLast?, c ∉ pad) (s : Text) :
    StaysWithin token s pad := by
  intro u _ _ hstarts
  by_contra hnot
  obtain ⟨c, rest, rfl, hrest⟩ := exists_across hstarts hnot
  have hlast : (u ++ c :: rest).getLast? =
      some ((c :: rest).getLast (List.cons_ne_nil c rest)) := by
    rw [List.getLast?_append, List.getLast?_eq_some_getLast (List.cons_ne_nil c rest),
      Option.some_or]
  exact hpad _ hlast (hrest.subset (List.getLast_mem (List.cons_ne_nil c rest)))

theorem countOccurrences_eq_zero (hne : token ≠ []) {c : Char} (hc : c ∈ token) (hpad : c ∉ pad) :
    countOccurrences token pad = 0 := by
  apply Nat.eq_zero_of_not_pos
  intro hcount
  have hpart := occursIn_iff_part.1 ((occursIn_iff_count_pos hne).2 hcount)
  exact hpad (hpart.subset hc)

/-- What stands around a text changes no count when the token can neither start in it in front of
the text nor end in it behind the text. -/
theorem countOccurrences_around (hne : token ≠ []) (hpad : ∀ c ∈ token.head?, c ∉ pad)
    (hpad' : ∀ c ∈ token.getLast?, c ∉ pad') (s : Text) :
    countOccurrences token (pad ++ s ++ pad') = countOccurrences token s := by
  have hfront : countOccurrences token pad = 0 :=
    countOccurrences_eq_zero hne (List.head_mem hne) (hpad _ (List.head?_eq_some_head hne))
  have hbehind : countOccurrences token pad' = 0 :=
    countOccurrences_eq_zero hne (List.getLast_mem hne)
      (hpad' _ (List.getLast?_eq_some_getLast hne))
  rw [countOccurrences_append (staysWithin_behind hpad' _),
    countOccurrences_append (staysWithin_front hne hpad _), hfront, hbehind, Nat.zero_add,
    Nat.add_zero]

end

/-! ## Phrases -/

/-- Whether a text starts and ends with no blank and has no line feed in it. -/
def isPhrase (token : Text) : Bool :=
  token.head?.any (!isBlank ·) && token.getLast?.any (!isBlank ·) && !token.contains '\n'

section

variable {token : Text}

theorem ne_nil_of_isPhrase (h : isPhrase token = true) : token ≠ [] := by
  rintro rfl
  cases h

theorem not_mem_of_isPhrase (h : isPhrase token = true) : '\n' ∉ token := by
  simp only [isPhrase, Bool.and_eq_true] at h
  simpa using h.2

theorem isBlank_head_of_isPhrase {c : Char} {rest : Text} (h : isPhrase (c :: rest) = true) :
    isBlank c = false := by
  simp only [isPhrase, Bool.and_eq_true] at h
  simpa using h.1.1

theorem isBlank_getLast_of_isPhrase {c : Char} (h : isPhrase token = true)
    (hlast : token.getLast? = some c) : isBlank c = false := by
  simp only [isPhrase, Bool.and_eq_true, hlast] at h
  simpa using h.1.2

theorem head_not_mem_of_blank (h : isPhrase token = true) {pad : Text}
    (hpad : ∀ c ∈ pad, isBlank c = true) : ∀ c ∈ token.head?, c ∉ pad := by
  intro c hc hmem
  obtain ⟨rest, rfl⟩ := List.head?_eq_some_iff.1 hc
  have hblank := hpad c hmem
  rw [isBlank_head_of_isPhrase h] at hblank
  cases hblank

theorem getLast_not_mem_of_blank (h : isPhrase token = true) {pad : Text}
    (hpad : ∀ c ∈ pad, isBlank c = true) : ∀ c ∈ token.getLast?, c ∉ pad := by
  intro c hc hmem
  have hblank := hpad c hmem
  rw [isBlank_getLast_of_isPhrase h hc] at hblank
  cases hblank

/-- A phrase does not start in blanks. -/
theorem staysWithin_of_blank_front (h : isPhrase token = true) {pad : Text}
    (hpad : ∀ c ∈ pad, isBlank c = true) (t : Text) : StaysWithin token pad t :=
  staysWithin_front (ne_nil_of_isPhrase h) (head_not_mem_of_blank h hpad) t

theorem countOccurrences_of_blank (h : isPhrase token = true) {pad : Text}
    (hpad : ∀ c ∈ pad, isBlank c = true) : countOccurrences token pad = 0 := by
  have hne := ne_nil_of_isPhrase h
  exact countOccurrences_eq_zero hne (List.head_mem hne)
    (head_not_mem_of_blank h hpad _ (List.head?_eq_some_head hne))

/-- Blanks around a text change no count. -/
theorem countOccurrences_margins (h : isPhrase token = true) {pad pad' : Text}
    (hpad : ∀ c ∈ pad, isBlank c = true) (hpad' : ∀ c ∈ pad', isBlank c = true) (s : Text) :
    countOccurrences token (pad ++ s ++ pad') = countOccurrences token s :=
  countOccurrences_around (ne_nil_of_isPhrase h) (head_not_mem_of_blank h hpad)
    (getLast_not_mem_of_blank h hpad') s

/-! ## Lines -/

theorem countOccurrences_joinLines (h : isPhrase token = true) (lines : List Text) :
    countOccurrences token (joinLines lines) = (lines.map (countOccurrences token)).sum := by
  have hfeed : countOccurrences token ['\n'] = 0 :=
    countOccurrences_of_blank h (by simp; rfl)
  induction lines with
  | nil => rfl
  | cons line rest ih =>
    cases rest with
    | nil => simp [joinLines]
    | cons next rest =>
      have hcut : StaysWithin token line (['\n'] ++ joinLines (next :: rest)) :=
        staysWithin_of_not_mem (not_mem_of_isPhrase h) _ _
      have hfront : StaysWithin token ['\n'] (joinLines (next :: rest)) :=
        staysWithin_of_blank_front h (by simp; rfl) _
      rw [joinLines_cons_cons, List.append_assoc, countOccurrences_append hcut,
        countOccurrences_append hfront, hfeed, ih]
      simp only [List.map_cons, List.sum_cons, Nat.zero_add]

theorem occursIn_joinLines_iff (h : isPhrase token = true) {lines : List Text} :
    occursIn token (joinLines lines) = true ↔ ∃ line ∈ lines, occursIn token line = true := by
  have hne := ne_nil_of_isPhrase h
  rw [occursIn_iff_count_pos hne, countOccurrences_joinLines h, Nat.pos_iff_ne_zero, ne_eq,
    List.sum_eq_zero_iff_forall_eq_nat]
  simp [occursIn_iff_count_pos hne, Nat.pos_iff_ne_zero]

theorem countOccurrences_trim (h : isPhrase token = true) (line : Text) :
    countOccurrences token (trim line) = countOccurrences token line := by
  obtain ⟨pad, pad', hpad, hpad', hline⟩ := exists_margins line
  have hmargins := countOccurrences_margins h hpad hpad' (trim line)
  rw [← hline] at hmargins
  exact hmargins.symm

theorem countOccurrences_lowercase_trim (h : isPhrase token = true) (line : Text) :
    countOccurrences token (lowercase (trim line)) = countOccurrences token (lowercase line) := by
  obtain ⟨pad, pad', hpad, hpad', hline⟩ := exists_margins line
  have hmargins := countOccurrences_margins h hpad hpad' (lowercase (trim line))
  have hlower : lowercase line = pad ++ lowercase (trim line) ++ pad' :=
    calc lowercase line = lowercase (pad ++ trim line ++ pad') := congrArg lowercase hline
      _ = pad ++ lowercase (trim line) ++ pad' := by
        rw [lowercase_append, lowercase_append, lowercase_of_blank hpad, lowercase_of_blank hpad']
  rw [hlower, hmargins]

theorem lowercase_joinLines (lines : List Text) :
    lowercase (joinLines lines) = joinLines (lines.map lowercase) := by
  induction lines with
  | nil => rfl
  | cons line rest ih =>
    cases rest with
    | nil => simp [joinLines]
    | cons next rest =>
      rw [joinLines_cons_cons, lowercase_append, lowercase_append, ih, List.map_cons, List.map_cons,
        List.map_cons, joinLines_cons_cons]
      rfl

/-! ## Lines without blanks -/

/-- The lines without the blanks around them; lines of blanks alone are left out. -/
def inked (lines : List Text) : List Text := (lines.map trim).filter (!·.isEmpty)

theorem inked_cons_of_blank {line : Text} (h : trim line = []) (lines : List Text) :
    inked (line :: lines) = inked lines := by
  simp [inked, h]

theorem inked_cons_of_not_blank {line : Text} (h : trim line ≠ []) (lines : List Text) :
    inked (line :: lines) = trim line :: inked lines := by
  simp [inked, h]

/-- A sum over the lines to which blanks add nothing. -/
theorem sum_map_inked {f : Text → Nat} (htrim : ∀ line, f (trim line) = f line) (hnil : f [] = 0)
    (lines : List Text) : ((inked lines).map f).sum = (lines.map f).sum := by
  induction lines with
  | nil => rfl
  | cons line rest ih =>
    rw [List.map_cons, List.sum_cons, ← ih, ← htrim line]
    by_cases hblank : trim line = []
    · rw [inked_cons_of_blank hblank, hblank, hnil, Nat.zero_add]
    · rw [inked_cons_of_not_blank hblank, List.map_cons, List.sum_cons]

variable {lines lines' : List Text}

theorem inked_eq_of_trim (h : lines.map trim = lines'.map trim) : inked lines = inked lines' := by
  rw [inked, inked, h]

theorem countOccurrences_eq_of_inked (h : isPhrase token = true)
    (hinked : inked lines = inked lines') :
    countOccurrences token (joinLines lines) = countOccurrences token (joinLines lines') := by
  have hsum := sum_map_inked (countOccurrences_trim h) rfl
  rw [countOccurrences_joinLines h, countOccurrences_joinLines h, ← hsum, hinked, hsum]

theorem occursIn_eq_of_inked (h : isPhrase token = true) (hinked : inked lines = inked lines') :
    occursIn token (joinLines lines) = occursIn token (joinLines lines') := by
  have hne := ne_nil_of_isPhrase h
  rw [Bool.eq_iff_iff, occursIn_iff_count_pos hne, occursIn_iff_count_pos hne,
    countOccurrences_eq_of_inked h hinked]

theorem occursIn_lowercase_eq_of_inked (h : isPhrase token = true)
    (hinked : inked lines = inked lines') :
    occursIn token (lowercase (joinLines lines)) =
      occursIn token (lowercase (joinLines lines')) := by
  have hcount : ∀ lines : List Text, countOccurrences token (lowercase (joinLines lines)) =
      ((inked lines).map fun line => countOccurrences token (lowercase line)).sum := by
    intro lines
    rw [lowercase_joinLines, countOccurrences_joinLines h, List.map_map,
      sum_map_inked (countOccurrences_lowercase_trim h) rfl]
    rfl
  have hne := ne_nil_of_isPhrase h
  rw [Bool.eq_iff_iff, occursIn_iff_count_pos hne, occursIn_iff_count_pos hne, hcount, hinked,
    ← hcount]

end

end GrowthEstimate.Text
