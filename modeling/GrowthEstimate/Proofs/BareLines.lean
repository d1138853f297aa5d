import GrowthEstimate.Body.Signals
import GrowthEstimate.Proofs.LoopCount
import GrowthEstimate.Proofs.Occurrences
import GrowthEstimate.Proofs.Spacing
import Mathlib.Data.List.Forall2

/-!
# Signals and the blanks around lines

Blanks around a line change no signal of the body that it stands in.  Two kinds of blanks do: those
of a line with nothing else in it, since an empty last line is lost when the body is cut into lines
again and any other is one of the last ten; and, in an indented language, those by which a line
stands off the margin.  The first of these are seen by the search for a tail call alone.

* `bare_eq_bare_iff`: when two lines differ in nothing but such blanks;
* `map_bare_splitLines_joinLines`: bare lines are all that is needed to cut a body into bare lines;
* `loopDepth_eq_of_trim`: the depth of loops, by braces;
* `Signals.ofBody_eq_of_inked`: all signals but that depth and the tail call, in every family;
* `Signals.ofBody_eq_of_bare`: the tail call too.
-/

namespace GrowthEstimate

namespace Text

/-! ## Bare lines -/

/-- A line without the blanks around it; a line of blanks alone stays as it is. -/
def bare (line : Text) : Text := if trim line = [] then line else trim line

@[simp] theorem trim_bare (line : Text) : trim (bare line) = trim line := by
  rw [bare]
  split
  · rfl
  · exact trim_trim line

theorem bare_eq_nil_iff {line : Text} : bare line = [] ↔ line = [] := by
  rw [bare]
  split
  · exact Iff.rfl
  · next hne =>
    constructor
    · intro hnil
      exact absurd hnil hne
    · rintro rfl
      exact absurd rfl hne

theorem bare_eq_bare_iff {a b : Text} :
    bare a = bare b ↔ trim a = trim b ∧ (trim a = [] → a = b) := by
  constructor
  · intro h
    have htrim : trim a = trim b := by rw [← trim_bare a, h, trim_bare]
    refine ⟨htrim, fun hblank => ?_⟩
    rwa [bare, bare, ← htrim, if_pos hblank, if_pos hblank] at h
  · rintro ⟨htrim, hsame⟩
    by_cases hblank : trim a = []
    · rw [hsame hblank]
    · rw [bare, bare, ← htrim, if_neg hblank, if_neg hblank]

section

variable {lines lines' : List Text}

theorem map_bare_eq_of_forall₂
    (h : List.Forall₂ (fun a b => trim a = trim b ∧ (trim a = [] → a = b)) lines lines') :
    lines.map bare = lines'.map bare := by
  induction h with
  | nil => rfl
  | cons hline _ ih => rw [List.map_cons, List.map_cons, bare_eq_bare_iff.2 hline, ih]

theorem map_trim_eq_of_bare (h : lines.map bare = lines'.map bare) :
    lines.map trim = lines'.map trim := by
  have htrim : ∀ lines : List Text, lines.map trim = (lines.map bare).map trim := by
    intro lines
    rw [List.map_map]
    exact List.map_congr_left fun line _ => (trim_bare line).symm
  rw [htrim lines, h, ← htrim]

/-- Bare lines tell whether the last line is empty, so they tell how the body is cut again. -/
theorem map_bare_splitLines_joinLines (hplain : ∀ line ∈ lines, ∀ c ∈ line, isLineEnd c = false)
    (hplain' : ∀ line ∈ lines', ∀ c ∈ line, isLineEnd c = false)
    (h : lines.map bare = lines'.map bare) :
    (splitLines (joinLines lines)).map bare = (splitLines (joinLines lines')).map bare := by
  have hends : ∀ lines : List Text,
      lines.getLast? = some [] ↔ (lines.map bare).getLast? = some [] := by
    intro lines
    simp [List.getLast?_map, bare_eq_nil_iff]
  have hlast : lines.getLast? = some [] ↔ lines'.getLast? = some [] := by rw [hends, h, ← hends]
  rw [splitLines_joinLines hplain, splitLines_joinLines hplain']
  by_cases hempty : lines.getLast? = some []
  · rw [if_pos hempty, if_pos (hlast.1 hempty), List.map_dropLast, List.map_dropLast, h]
  · rw [if_neg hempty, if_neg (mt hlast.2 hempty), h]

/-! ## Words in the lines -/

theorem occursIn_singleton (c : Char) (s : Text) : occursIn [c] s = s.contains c := by
  induction s with
  | nil => rfl
  | cons d s ih =>
    rw [occursIn, ih, List.contains_cons, List.isPrefixOf, List.isPrefixOf, Bool.and_true]

theorem anyOccursIn_eq_of_inked {tokens : List Text} (h : ∀ token ∈ tokens, isPhrase token = true)
    (hinked : inked lines = inked lines') :
    anyOccursIn tokens (joinLines lines) = anyOccursIn tokens (joinLines lines') :=
  anyOccursIn_congr fun token htoken => occursIn_eq_of_inked (h token htoken) hinked

theorem anyOccursIn_lowercase_eq_of_inked {tokens : List Text}
    (h : ∀ token ∈ tokens, isPhrase token = true) (hinked : inked lines = inked lines') :
    anyOccursIn tokens (lowercase (joinLines lines)) =
      anyOccursIn tokens (lowercase (joinLines lines')) :=
  anyOccursIn_congr fun token htoken => occursIn_lowercase_eq_of_inked (h token htoken) hinked

end

end Text

open Text

namespace Body

/-! ## Signals read line by line -/

section

variable {body body' : Text}

theorem isTailRecursive_eq_of_trim (h : (splitLines body).map trim = (splitLines body').map trim)
    (name : Text) : isTailRecursive name body = isTailRecursive name body' := by
  have hlength : (splitLines body).length = (splitLines body').length := by
    simpa using congrArg List.length h
  rw [isTailRecursive, isTailRecursive, List.map_drop, List.map_drop, h, hlength]

theorem Nesting.after_eq_of_trim {family : Family} (hfamily : family ≠ .indentation) {a b : Text}
    (h : trim a = trim b) (n : Nesting) : n.after family a = n.after family b := by
  have hbrace : isBlank '}' = false := rfl
  have hbehind : ∀ depth, openBehind family depth a = openBehind family depth b := by
    intro depth
    cases family with
    | indentation => exact absurd rfl hfamily
    | brace | script | generic =>
      rw [openBehind, openBehind, ← count_trim hbrace a, h, count_trim hbrace]
  rw [after, after, h]
  simp only [hbehind]

theorem Nesting.afterLines_eq_of_trim {family : Family} (hfamily : family ≠ .indentation)
    {lines lines' : List Text} (h : lines.map trim = lines'.map trim) (n : Nesting) :
    n.afterLines family lines = n.afterLines family lines' := by
  induction lines generalizing lines' n with
  | nil =>
    rw [List.map_nil, eq_comm, List.map_eq_nil_iff] at h
    rw [h]
  | cons line rest ih =>
    cases lines' with
    | nil => cases h
    | cons line' rest' =>
      obtain ⟨hline, hrest⟩ := List.cons.inj h
      rw [afterLines, afterLines, List.foldl_cons, List.foldl_cons,
        after_eq_of_trim hfamily hline]
      exact ih hrest _

/-- Closing braces are counted wherever they stand in a line. -/
theorem loopDepth_eq_of_trim {family : Family} (hfamily : family ≠ .indentation)
    (h : (splitLines body).map trim = (splitLines body').map trim) :
    loopDepth family body = loopDepth family body' := by
  have htake : ((splitLines body).take loopScanLines).map trim =
      ((splitLines body').take loopScanLines).map trim := by
    rw [List.map_take, List.map_take, h]
  rw [loopDepth, loopDepth, Nesting.afterLines_eq_of_trim hfamily htake]

end

/-! ## Signals read off the whole body -/

section

variable {lines lines' : List Text}

theorem isFactorial_eq_of_inked (h : inked lines = inked lines') :
    isFactorial (joinLines lines) = isFactorial (joinLines lines') := by
  rw [isFactorial, isFactorial, ← occursIn_singleton, ← occursIn_singleton,
    occursIn_eq_of_inked (by decide) h, occursIn_eq_of_inked (by decide) h,
    anyOccursIn_eq_of_inked (by decide) h]

theorem countSelfCalls_eq_of_inked {name : Text} (hname : isPhrase (callOf name) = true)
    (h : inked lines = inked lines') :
    countSelfCalls name (joinLines lines) = countSelfCalls name (joinLines lines') := by
  rw [countSelfCalls, countSelfCalls, countOccurrences_eq_of_inked hname h]

theorem isFibonacciLike_eq_of_inked {name : Text} (hname : isPhrase (callOf name) = true)
    (h : inked lines = inked lines') :
    isFibonacciLike name (joinLines lines) = isFibonacciLike name (joinLines lines') := by
  rw [isFibonacciLike, isFibonacciLike, countSelfCalls_eq_of_inked hname h,
    anyOccursIn_eq_of_inked (by decide) h, anyOccursIn_eq_of_inked (by decide) h]

end

end Body

open Body

section

variable {table : List Builtin} {family : Family} {name : Text} {lines lines' : List Text}

/-- Two bodies that differ in blanks and blank lines have the same signals, except for a tail call,
provided that their loops are nested equally deep. -/
theorem Signals.ofBody_eq_of_inked (htable : ∀ b ∈ table, isPhrase b.name = true)
    (hname : isPhrase (callOf name) = true) (h : inked lines = inked lines')
    (hloops : Body.loopDepth family (joinLines lines) = Body.loopDepth family (joinLines lines')) :
    ofBody table family name (joinLines lines) =
      { ofBody table family name (joinLines lines') with
        tailRecursive := isTailRecursive name (joinLines lines) } := by
  have hbuiltins : (table.filter fun b => occursIn b.name (joinLines lines)) =
      table.filter fun b => occursIn b.name (joinLines lines') :=
    List.filter_congr fun b hb => occursIn_eq_of_inked (htable b hb) h
  have hwords := words_joinLines_eq_of_inked h
  simp only [ofBody, mk.injEq]
  refine ⟨hbuiltins, hloops, countSelfCalls_eq_of_inked hname h, isBinarySearch_eq_of_words hwords,
    anyOccursIn_lowercase_eq_of_inked (by decide) h,
    anyOccursIn_lowercase_eq_of_inked (by decide) h, isFactorial_eq_of_inked h,
    isDivideAndConquer_eq_of_words hwords, trivial, isFibonacciLike_eq_of_inked hname h⟩

/-- Two bodies whose lines are bare the same have the same signals, provided that their loops are
nested equally deep. -/
theorem Signals.ofBody_eq_of_bare (htable : ∀ b ∈ table, isPhrase b.name = true)
    (hname : isPhrase (callOf name) = true)
    (hplain : ∀ line ∈ lines, ∀ c ∈ line, isLineEnd c = false)
    (hplain' : ∀ line ∈ lines', ∀ c ∈ line, isLineEnd c = false)
    (h : lines.map bare = lines'.map bare)
    (hloops : Body.loopDepth family (joinLines lines) = Body.loopDepth family (joinLines lines')) :
    ofBody table family name (joinLines lines) = ofBody table family name (joinLines lines') := by
  have hinked := inked_eq_of_trim (map_trim_eq_of_bare h)
  have htail := isTailRecursive_eq_of_trim
    (map_trim_eq_of_bare (map_bare_splitLines_joinLines hplain hplain' h)) name
  rw [ofBody_eq_of_inked htable hname hinked hloops, htail]
  rfl

end

end GrowthEstimate
