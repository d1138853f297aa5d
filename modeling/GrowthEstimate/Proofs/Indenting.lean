import GrowthEstimate.Proofs.BareLines
import GrowthEstimate.Proofs.HeaderSpans
import GrowthEstimate.Proofs.LineSplitting

/-!
# Indenting a text

A text is indented by putting the same blanks in front of each of its lines that is not blank.
Every indent grows by their number, so an indented language sees the same functions on the same
lines.

* `splitLines_indentText`: the lines of an indented text;
* `bare_indentLine`: indenting leaves a bare line as it is;
* `functionSpans_indentLine`: the functions of indented lines.
-/

namespace GrowthEstimate

namespace Text

/-! ## The lines of an indented text -/

def indentLine (pad line : Text) : Text := if trim line = [] then line else pad ++ line

def firstLine (s : Text) : Text := s.takeWhile fun c => !isLineEnd c

/-- What indenting puts in front of a text. -/
def marginOf (pad s : Text) : Text := if trim (firstLine s) = [] then [] else pad

/-- The text with `pad` in front of every line but the first that is not blank. -/
def indentRest (pad : Text) : Text → Text
  | [] => []
  | c :: s => c :: ((if isLineEnd c then marginOf pad s else []) ++ indentRest pad s)

/-- The text with `pad` in front of every line that is not blank. -/
def indentText (pad s : Text) : Text := marginOf pad s ++ indentRest pad s

theorem length_le_indentRest (pad s : Text) : s.length ≤ (indentRest pad s).length := by
  induction s with
  | nil => exact Nat.le_refl _
  | cons c s ih =>
    rw [indentRest, List.length_cons, List.length_cons, List.length_append]
    omega

theorem length_le_indentText (pad s : Text) : s.length ≤ (indentText pad s).length := by
  have hrest := length_le_indentRest pad s
  rw [indentText, List.length_append]
  omega

theorem indentRest_eq_nil_iff {pad s : Text} : indentRest pad s = [] ↔ s = [] := by
  cases s <;> simp [indentRest]

theorem head?_indentRest (pad s : Text) : (indentRest pad s).head? = s.head? := by
  cases s <;> rfl

theorem head?_splitLines {s : Text} (hne : s ≠ []) :
    (splitLines s).head? = some (firstLine s) := by
  induction s with
  | nil => exact absurd rfl hne
  | cons c s ih =>
    cases hc : isLineEnd c with
    | false =>
      have hfirst : firstLine (c :: s) = c :: firstLine s := by simp [firstLine, hc]
      rw [splitLines_cons_of_plain hc, hfirst]
      cases s with
      | nil => rfl
      | cons d s =>
        obtain ⟨rest, hlines⟩ := List.head?_eq_some_iff.1 (ih (List.cons_ne_nil d s))
        rw [hlines]
        rfl
    | true =>
      have hfirst : firstLine (c :: s) = [] := by simp [firstLine, hc]
      rw [splitLines_cons, hfirst]
      split
      · next hpair =>
        -- the line feed behind a carriage return ends the same line
        rw [Bool.and_eq_true, beq_iff_eq, beq_iff_eq] at hpair
        obtain ⟨rest, rfl⟩ := List.head?_eq_some_iff.1 hpair.2
        exact ih (List.cons_ne_nil _ _)
      · rfl

section

variable {pad : Text} (hpad : ∀ c ∈ pad, isBlank c = true ∧ isLineEnd c = false)

include hpad

theorem splitLines_pad_append {t : Text} (hne : t ≠ []) :
    splitLines (pad ++ t) = (splitLines t).modifyHead (pad ++ ·) := by
  induction pad with
  | nil =>
    rw [List.nil_append]
    cases splitLines t <;> rfl
  | cons c pad ih =>
    have hrest : ∀ d ∈ pad, isBlank d = true ∧ isLineEnd d = false :=
      fun d hd => hpad d (by simp [hd])
    rw [List.cons_append, splitLines_cons_of_plain (hpad c (by simp)).2, ih hrest]
    cases hlines : splitLines t with
    | nil => exact absurd hlines (splitLines_ne_nil hne)
    | cons line lines => rfl

/-- The margin makes the first line the same as all others. -/
theorem splitLines_indentText_of_rest {s : Text}
    (h : splitLines (indentRest pad s) =
      (splitLines s).take 1 ++ ((splitLines s).drop 1).map (indentLine pad)) :
    splitLines (indentText pad s) = (splitLines s).map (indentLine pad) := by
  by_cases hs : s = []
  · subst hs
    rfl
  · obtain ⟨rest, hlines⟩ := List.head?_eq_some_iff.1 (head?_splitLines hs)
    rw [hlines] at h ⊢
    rw [indentText, marginOf, List.map_cons, indentLine]
    by_cases hblank : trim (firstLine s) = []
    · rw [if_pos hblank, if_pos hblank]
      exact h
    · rw [if_neg hblank, if_neg hblank,
        splitLines_pad_append hpad (mt indentRest_eq_nil_iff.1 hs), h]
      rfl

/-- The margin does not start with a line feed, so no pair of line ends comes about. -/
theorem head?_indentText (s : Text) :
    (indentText pad s).head? = some '\n' ↔ s.head? = some '\n' := by
  rw [indentText, marginOf]
  split
  · rw [List.nil_append, head?_indentRest]
  · next hblank =>
    cases pad with
    | nil => rw [List.nil_append, head?_indentRest]
    | cons c pad =>
      have hplain := (hpad c (by simp)).2
      constructor
      · intro hfeed
        obtain rfl : c = '\n' := by simpa using hfeed
        cases hplain
      · intro hfeed
        obtain ⟨rest, rfl⟩ := List.head?_eq_some_iff.1 hfeed
        exact absurd rfl hblank

theorem splitLines_indentRest (s : Text) :
    splitLines (indentRest pad s) =
      (splitLines s).take 1 ++ ((splitLines s).drop 1).map (indentLine pad) := by
  induction s with
  | nil => rfl
  | cons c s ih =>
    rw [indentRest]
    cases hc : isLineEnd c with
    | false =>
      simp only [Bool.false_eq_true, if_false, List.nil_append]
      rw [splitLines_cons_of_plain hc, splitLines_cons_of_plain hc, ih]
      cases splitLines s <;> rfl
    | true =>
      have htext := splitLines_indentText_of_rest hpad ih
      have hfeed : ((indentText pad s).head? == some '\n') = (s.head? == some '\n') := by
        rw [Bool.eq_iff_iff, beq_iff_eq, beq_iff_eq, head?_indentText hpad]
      rw [if_pos rfl, ← indentText, splitLines_cons, splitLines_cons, hfeed, hc, htext]
      split
      · next hpair =>
        -- the line in front of the pair is the empty one in front of its line feed
        rw [Bool.and_eq_true, beq_iff_eq, beq_iff_eq] at hpair
        obtain ⟨rest, hs⟩ := List.head?_eq_some_iff.1 hpair.2
        have hne : s ≠ [] := by simp [hs]
        obtain ⟨lines, hlines⟩ := List.head?_eq_some_iff.1 (head?_splitLines hne)
        have hfirst : firstLine s = [] := by rw [hs]; rfl
        rw [hlines, hfirst]
        rfl
      · rfl

theorem splitLines_indentText (s : Text) :
    splitLines (indentText pad s) = (splitLines s).map (indentLine pad) :=
  splitLines_indentText_of_rest hpad (splitLines_indentRest hpad s)

/-! ## One indented line -/

theorem trim_indentLine (line : Text) : trim (indentLine pad line) = trim line := by
  rw [indentLine]
  split
  · rfl
  · rw [trim, trim, trimStart_append_of_blank fun c hc => (hpad c hc).1]

theorem bare_indentLine (line : Text) : bare (indentLine pad line) = bare line := by
  refine bare_eq_bare_iff.2 ⟨trim_indentLine hpad line, ?_⟩
  rw [trim_indentLine hpad]
  intro hblank
  rw [indentLine, if_pos hblank]

end

end Text

open Text Header

/-! ## The functions of indented lines -/

section

variable {pad : Text} (hpad : ∀ c ∈ pad, isBlank c = true ∧ isLineEnd c = false)

include hpad

theorem indentOf_indentLine {line : Text} (h : trim line ≠ []) :
    indentOf (indentLine pad line) = pad.length + indentOf line := by
  rw [indentLine, if_neg h, indentOf, indentOf,
    List.takeWhile_append_of_pos fun c hc => (hpad c hc).1, List.length_append]

theorem endsIndented_indentLine (indent : Nat) (line : Text) :
    endsIndented (pad.length + indent) (indentLine pad line) = endsIndented indent line := by
  rw [endsIndented, endsIndented, trim_indentLine hpad]
  by_cases hblank : trim line = []
  · simp [hblank]
  · rw [indentOf_indentLine hpad hblank]
    simp

theorem indentedExtent_indentLine (indent : Nat) (lines : List Text) :
    indentedExtent (pad.length + indent) (lines.map (indentLine pad)) =
      indentedExtent indent lines := by
  induction lines with
  | nil => rfl
  | cons line rest ih =>
    rw [List.map_cons, indentedExtent_cons, indentedExtent_cons, endsIndented_indentLine hpad, ih]

theorem indentedSpanAt_indentLine (read : Nat) (line : Text) (rest : List Text) :
    indentedSpanAt read (indentLine pad line) (rest.map (indentLine pad)) =
      indentedSpanAt read line rest := by
  rw [indentedSpanAt, indentedSpanAt, trim_indentLine hpad]
  cases hname : indentedName? (trim line) with
  | none => rfl
  | some name =>
    have hblank : trim line ≠ [] := by
      intro hnil
      rw [hnil] at hname
      cases hname
    rw [indentOf_indentLine hpad hblank, indentedExtent_indentLine hpad]

theorem functionSpans_indentLine (lines : List Text) :
    functionSpans .indentation (lines.map (indentLine pad)) =
      functionSpans .indentation lines := by
  rw [functionSpans_eq, functionSpans_eq]
  exact spansFrom_map (indentedSpanAt_indentLine hpad) 0 lines

end

end GrowthEstimate
