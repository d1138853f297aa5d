import GrowthEstimate.Proofs.LoopInsertion
import GrowthEstimate.Proofs.Spacing
import Mathlib.Data.List.Infix

/-!
# Lines around a body

A body passes no fewer tests when lines are put in front of it and behind it.  What is found in the
body stays there; a word or a number at either end of it is cut off by the line feed; and the depth
of its loops is the greatest one seen, which no line behind the body lowers.

* `loopDepth_le_append`: lines behind a body make its loops no less deep;
* `lasts_hasHalving`, `lasts_occursIn`: halvings and words are found in the whole;
* `Lasts.and`, `Lasts.or`, `Lasts.lowercase`: and so is what is made up of them;
* `signals_of_added_lines`: the idioms, the self-calls and the loops of a body with lines around it.
-/

namespace GrowthEstimate.Body

open Text

/-! ## Loops -/

theorem Nesting.deepest_le_afterLines (family : Family) (n : Nesting) (lines : List Text) :
    n.deepest ≤ (n.afterLines family lines).deepest := by
  induction lines generalizing n with
  | nil => exact Nat.le_refl _
  | cons line rest ih =>
    refine Nat.le_trans ?_ (ih (n.after family line))
    rw [Nesting.after]
    split
    · exact Nat.le_refl _
    · exact Nat.le_max_left _ _

/-- The lines of the body are scanned first, and as many of them as without the lines behind. -/
theorem loopDepth_le_append (family : Family) (body after : Text) :
    loopDepth family body ≤ loopDepth family (body ++ '\n' :: after) := by
  obtain ⟨behind, hbehind⟩ := List.IsPrefix.take (splitLines_append_feed body after) loopScanLines
  rw [loopDepth, loopDepth, ← hbehind, Nesting.afterLines_append]
  have hdeepest := Nesting.deepest_le_afterLines family
    (Nesting.outside.afterLines family ((splitLines body).take loopScanLines)) behind
  omega

/-! ## Halvings -/

section

variable {t : Text} (ht : beginsWithWordChar t = false)

include ht

/-- What stands behind a text does not make its last digit a longer number. -/
theorem digitFollows_append {digit : Char} {s : Text} (h : digitFollows digit s = true) :
    digitFollows digit (s ++ t) = true := by
  rw [digitFollows] at h ⊢
  split at h
  · cases h
  · next c rest hstart =>
    have hwhole : trimStart (s ++ t) = c :: (rest ++ t) := by
      rw [trimStart] at hstart ⊢
      simp [List.dropWhile_append, hstart]
    rw [hwhole]
    cases rest with
    | nil => simp_all [beginsWithWordChar]
    | cons d rest => exact h

theorem halvesHere_append {previous : Option Char} {s : Text} (h : halvesHere previous s = true) :
    halvesHere previous (s ++ t) = true := by
  simp only [halvesHere, Bool.or_eq_true, Option.any_eq_true, Bool.and_eq_true] at h ⊢
  rcases h with (⟨rest, hrest, hdigit⟩ | ⟨rest, hrest, hdigit⟩) |
    ⟨rest, hrest, ⟨⟨c, hc, hblank⟩, hdigit⟩, hword⟩
  · exact Or.inl (Or.inl ⟨_, after?_append hrest t, digitFollows_append ht hdigit⟩)
  · exact Or.inl (Or.inr ⟨_, after?_append hrest t, digitFollows_append ht hdigit⟩)
  · have hhead : (rest ++ t).head? = some c := by rw [List.head?_append, hc, Option.some_or]
    exact Or.inr ⟨_, after?_append hrest t, ⟨⟨c, hhead, hblank⟩, digitFollows_append ht hdigit⟩,
      hword⟩

theorem halvesFrom_append {previous : Option Char} {s : Text} (h : halvesFrom previous s = true) :
    halvesFrom previous (s ++ t) = true := by
  induction s generalizing previous with
  | nil => cases h
  | cons c s ih =>
    rw [halvesFrom, Bool.or_eq_true] at h
    rw [List.cons_append, halvesFrom, Bool.or_eq_true]
    exact h.imp (halvesHere_append ht) ih

end

/-- A line feed in front of a text cuts off what stands before it. -/
theorem halvesFrom_behind_feed {s : Text} (h : halvesFrom none s = true) (before : Text)
    (previous : Option Char) : halvesFrom previous (before ++ '\n' :: s) = true := by
  have hfeed : isBlank '\n' = true := rfl
  induction before generalizing previous with
  | nil => rwa [List.nil_append, halvesFrom_cons_blank hfeed]
  | cons c before ih =>
    rw [List.cons_append, halvesFrom, ih (some c), Bool.or_true]

/-! ## Tests that last -/

/-- Whether a test that a text passes is passed by every text that has it on lines of its own. -/
def Lasts (test : Text → Bool) : Prop :=
  ∀ before body after : Text, test body = true →
    test (before ++ '\n' :: body ++ '\n' :: after) = true

theorem infix_lines (before body after : Text) :
    body <:+: before ++ '\n' :: body ++ '\n' :: after :=
  ⟨before ++ ['\n'], '\n' :: after, by simp⟩

namespace Lasts

variable {test test' : Text → Bool}

theorem and (h : Lasts test) (h' : Lasts test') : Lasts fun s => test s && test' s := by
  intro before body after hboth
  rw [Bool.and_eq_true] at hboth ⊢
  exact ⟨h _ _ _ hboth.1, h' _ _ _ hboth.2⟩

theorem or (h : Lasts test) (h' : Lasts test') : Lasts fun s => test s || test' s := by
  intro before body after heither
  rw [Bool.or_eq_true] at heither ⊢
  exact heither.imp (h _ _ _) (h' _ _ _)

/-- A line feed stays as it is, so a lowered text stands on lines of its own as well. -/
theorem lowercase (h : Lasts test) : Lasts fun s => test (lowercase s) := by
  intro before body after hbody
  have hwhole : Text.lowercase (before ++ '\n' :: body ++ '\n' :: after) =
      Text.lowercase before ++ '\n' :: Text.lowercase body ++ '\n' :: Text.lowercase after := by
    rw [lowercase_append, lowercase_append]
    rfl
  show test (Text.lowercase _) = true
  rw [hwhole]
  exact h _ _ _ hbody

end Lasts

theorem lasts_occursIn (token : Text) : Lasts (occursIn token) := by
  intro before body after h
  exact occursIn_iff_part.2 ((occursIn_iff_part.1 h).trans (infix_lines before body after))

theorem lasts_anyOccursIn (tokens : List Text) : Lasts (anyOccursIn tokens) := by
  intro before body after h
  obtain ⟨token, htoken, hoccurs⟩ := List.any_eq_true.1 h
  exact List.any_eq_true.2 ⟨token, htoken, lasts_occursIn token _ _ _ hoccurs⟩

theorem lasts_contains (c : Char) : Lasts (List.contains · c) := by
  intro before body after h
  simp only [List.contains_iff_mem] at h ⊢
  exact (infix_lines before body after).subset h

theorem lasts_hasHalving : Lasts hasHalving := by
  intro before body after h
  have hfeed : beginsWithWordChar ('\n' :: after) = false := rfl
  rw [List.append_assoc]
  exact halvesFrom_behind_feed (halvesFrom_append hfeed h) before none

theorem countSelfCalls_le_of_infix {s t : Text} (h : s <:+: t) (name : Text) :
    countSelfCalls name s ≤ countSelfCalls name t := by
  have hcount := countOccurrences_le_of_infix h (callOf name)
  rw [countSelfCalls, countSelfCalls]
  split
  · omega
  · exact Nat.le_refl 0

theorem lasts_atLeast (name : Text) (least : Nat) :
    Lasts fun s => decide (least ≤ countSelfCalls name s) := by
  intro before body after h
  have hmore := countSelfCalls_le_of_infix (infix_lines before body after) name
  simp only [decide_eq_true_eq] at h ⊢
  omega

/-! ## The idioms -/

theorem lasts_isBinarySearch : Lasts isBinarySearch :=
  (((lasts_anyOccursIn middleWords).and (lasts_anyOccursIn lowerBoundWords)).and
    (lasts_anyOccursIn upperBoundWords)).and lasts_hasHalving

theorem lasts_isSorting : Lasts isSorting := (lasts_anyOccursIn sortingWords).lowercase

theorem lasts_isDynamicProgramming : Lasts isDynamicProgramming :=
  (lasts_anyOccursIn dynamicProgrammingWords).lowercase

theorem lasts_isFactorial : Lasts isFactorial :=
  (lasts_occursIn "factorial".toList).or ((lasts_contains '*').and (lasts_anyOccursIn lessOneWords))

theorem lasts_isDivideAndConquer : Lasts isDivideAndConquer :=
  ((lasts_occursIn "mid".toList).or lasts_hasHalving).and
    ((lasts_occursIn "merge".toList).or (lasts_occursIn "combine".toList))

theorem lasts_isFibonacciLike (name : Text) : Lasts (isFibonacciLike name) :=
  ((lasts_atLeast name 2).and (lasts_anyOccursIn lessOneWords)).and (lasts_anyOccursIn lessTwoWords)

/-- Lines in front of a body and behind it take no sign of an idiom from it, and none of its
self-calls, whatever the name.  Lines behind it take none of its loops. -/
theorem signals_of_added_lines (family : Family) (name before body after : Text) :
    let whole := before ++ '\n' :: body ++ '\n' :: after
    (∀ test ∈ [hasHalving, isBinarySearch, isSorting, isDynamicProgramming, isFactorial,
        isDivideAndConquer, isFibonacciLike name], test body = true → test whole = true)
      ∧ countSelfCalls name body ≤ countSelfCalls name whole
      ∧ loopDepth family body ≤ loopDepth family (body ++ '\n' :: after) := by
  intro whole
  refine ⟨?_, countSelfCalls_le_of_infix (infix_lines before body after) name,
    loopDepth_le_append family body after⟩
  have hlast : ∀ test ∈ [hasHalving, isBinarySearch, isSorting, isDynamicProgramming, isFactorial,
      isDivideAndConquer, isFibonacciLike name], Lasts test := by
    simp only [List.forall_mem_cons]
    exact ⟨lasts_hasHalving, lasts_isBinarySearch, lasts_isSorting, lasts_isDynamicProgramming,
      lasts_isFactorial, lasts_isDivideAndConquer, lasts_isFibonacciLike name, by simp⟩
  exact fun test htest hbody => hlast test htest before body after hbody

/-- A halving that ends at both ends of the body, and is none when no line feeds stand there. -/
theorem signals_of_added_lines_seams :
    hasHalving "div 2".toList = true ∧ hasHalving "xdiv 20".toList = false
      ∧ hasHalving "x\ndiv 2\n0".toList = true := by
  have hbody : hasHalving "div 2".toList = true := by decide
  obtain ⟨hidioms, -, -⟩ :=
    signals_of_added_lines .brace [] "x".toList "div 2".toList "0".toList
  exact ⟨hbody, by decide, hidioms hasHalving (by simp) hbody⟩

end GrowthEstimate.Body
