import GrowthEstimate.Proofs.LoopCount
import GrowthEstimate.Proofs.Verdict

/-!
# A line more in a body

Two scans of a body, with and without one line more, run alike up to that line and read the same
lines behind it.  A line that only opens a loop puts the longer scan one loop ahead, and no line
behind it takes the two further apart.

* `OneAhead.afterLines`: a scan that is at most one loop ahead stays so;
* `loopDepth_insert_skipped`, `loopDepth_insert_loop`: the depth behind an inserted line;
* `rank_verdict_le`: deeper loops never bring a better class, a binary search in a single loop
  apart;
* `loopDepth_insert`: depth and class behind an inserted line.
-/

namespace GrowthEstimate

open Text

namespace Body

/-! ## Two scans side by side -/

/-- The scan of `b` is as deep as that of `a`, or one loop deeper. -/
structure Nesting.OneAhead (a b : Nesting) : Prop where
  depth_le : a.depth ≤ b.depth
  depth_le_succ : b.depth ≤ a.depth + 1
  deepest_le : a.deepest ≤ b.deepest
  deepest_le_succ : b.deepest ≤ a.deepest + 1

/-- Closing loops, down to none, brings two depths no further apart. -/
theorem openBehind_oneAhead {shallow deep : Nat} (hle : shallow ≤ deep) (hsucc : deep ≤ shallow + 1)
    (family : Family) (line : Text) :
    openBehind family shallow line ≤ openBehind family deep line
      ∧ openBehind family deep line ≤ openBehind family shallow line + 1 := by
  cases family with
  | indentation =>
    simp only [openBehind]
    split <;> omega
  | brace | script | generic =>
    simp only [openBehind]
    omega

namespace Nesting.OneAhead

variable {a b : Nesting}

theorem after (h : a.OneAhead b) (family : Family) (line : Text) :
    (a.after family line).OneAhead (b.after family line) := by
  cases hskip : isSkipped (trim line) with
  | true => rwa [after_of_skipped hskip, after_of_skipped hskip]
  | false =>
    obtain ⟨hdepth, hdepth', hdeepest, hdeepest'⟩ := h
    have hloops : ∀ n : Nesting, n.after family line =
        let depth := if isLoopStart family (trim line) then n.depth + 1 else n.depth
        ⟨openBehind family depth line, max n.deepest depth⟩ := by
      intro n
      simp [Nesting.after, hskip]
    rw [hloops, hloops]
    cases isLoopStart family (trim line) with
    | true =>
      have hopen := openBehind_oneAhead (Nat.succ_le_succ hdepth) (Nat.succ_le_succ hdepth')
        family line
      exact ⟨hopen.1, hopen.2, by simp; omega, by simp; omega⟩
    | false =>
      have hopen := openBehind_oneAhead hdepth hdepth' family line
      exact ⟨hopen.1, hopen.2, by simp; omega, by simp; omega⟩

theorem afterLines (h : a.OneAhead b) (family : Family) (lines : List Text) :
    (a.afterLines family lines).OneAhead (b.afterLines family lines) := by
  induction lines generalizing a b with
  | nil => exact h
  | cons line rest ih => exact ih (h.after family line)

end Nesting.OneAhead

/-! ## The inserted line -/

/-- Whether a line starts a loop and closes none: it is no comment, and it holds no closing brace
or, in an indented language, does not stand at the margin. -/
def opensLoop (family : Family) (line : Text) : Bool :=
  !isSkipped (trim line) && isLoopStart family (trim line) &&
    match family with
    | .indentation => line.head?.any isBlank
    | .brace | .script | .generic => !line.contains '}'

theorem openBehind_of_opensLoop {family : Family} {line : Text} (h : opensLoop family line = true)
    (depth : Nat) : openBehind family depth line = depth := by
  simp only [opensLoop, Bool.and_eq_true] at h
  cases family with
  | indentation => exact openBehind_of_head_isBlank h.2 depth
  | brace | script | generic =>
    have hnone : line.count '}' = 0 := List.count_eq_zero.2 (by simpa using h.2)
    rw [openBehind, hnone, Nat.sub_zero]

theorem Nesting.oneAhead_after {family : Family} {line : Text} (h : opensLoop family line = true)
    {n : Nesting} (hn : n.depth ≤ n.deepest) : n.OneAhead (n.after family line) := by
  have hplain := h
  simp only [opensLoop, Bool.and_eq_true, Bool.not_eq_true'] at hplain
  obtain ⟨⟨hskip, hloop⟩, -⟩ := hplain
  have hafter : n.after family line = ⟨n.depth + 1, max n.deepest (n.depth + 1)⟩ := by
    simp [Nesting.after, hskip, hloop, openBehind_of_opensLoop h]
  rw [hafter]
  exact ⟨Nat.le_succ _, Nat.le_refl _, Nat.le_max_left _ _,
    Nat.max_le.2 ⟨Nat.le_succ _, Nat.succ_le_succ hn⟩⟩

theorem depth_le_deepest_afterLines (family : Family) {n : Nesting} (h : n.depth ≤ n.deepest)
    (lines : List Text) :
    (n.afterLines family lines).depth ≤ (n.afterLines family lines).deepest := by
  induction lines generalizing n with
  | nil => exact h
  | cons line rest ih => exact ih (depth_le_deepest_after family h line)

section

variable (family : Family) {before after : List Text} {line body body' : Text}

/-- A body short enough to be read to its end is read to its end with a line more. -/
theorem loopDepth_insert_eq (hbody : body.HasLines (before ++ after))
    (hbody' : body'.HasLines (before ++ line :: after))
    (hcount : before.length + after.length < loopScanLines) :
    let n := Nesting.outside.afterLines family before
    loopDepth family body = min (n.afterLines family after).deepest deepestLoop
      ∧ loopDepth family body' =
        min ((n.after family line).afterLines family after).deepest deepestLoop := by
  intro n
  rw [loopDepth_eq family hbody, loopDepth_eq family hbody',
    List.take_of_length_le (by simp; omega), List.take_of_length_le (by simp; omega),
    Nesting.afterLines_append, Nesting.afterLines_append]
  exact ⟨rfl, rfl⟩

theorem loopDepth_insert_skipped (hbody : body.HasLines (before ++ after))
    (hbody' : body'.HasLines (before ++ line :: after))
    (hcount : before.length + after.length < loopScanLines) (hline : isSkipped (trim line) = true) :
    loopDepth family body' = loopDepth family body := by
  obtain ⟨h, h'⟩ := loopDepth_insert_eq family hbody hbody' hcount
  rw [h, h', Nesting.after_of_skipped hline]

theorem loopDepth_insert_loop (hbody : body.HasLines (before ++ after))
    (hbody' : body'.HasLines (before ++ line :: after))
    (hcount : before.length + after.length < loopScanLines)
    (hline : opensLoop family line = true) :
    loopDepth family body' = loopDepth family body
      ∨ loopDepth family body' = loopDepth family body + 1 := by
  obtain ⟨h, h'⟩ := loopDepth_insert_eq family hbody hbody' hcount
  have hstart := depth_le_deepest_afterLines family (Nat.le_refl Nesting.outside.depth) before
  obtain ⟨-, -, hle, hsucc⟩ := (Nesting.oneAhead_after hline hstart).afterLines family after
  rw [h, h']
  omega

end

end Body

/-! ## The class behind an inserted line -/

theorem rank_loopGrowth_mono {depth deeper : Nat} (h : depth ≤ deeper) :
    (Growth.joinAll (loopGrowth? depth).toList).rank ≤
      (Growth.joinAll (loopGrowth? deeper).toList).rank := by
  have step : ∀ d, (Growth.joinAll (loopGrowth? d).toList).rank ≤
      (Growth.joinAll (loopGrowth? (d + 1)).toList).rank := by
    intro d
    rcases d with _ | _ | _ | _ | d
    · decide
    · decide
    · decide
    · decide
    · exact Nat.le_refl _
  induction h with
  | refl => exact Nat.le_refl _
  | step _ ih => exact Nat.le_trans ih (step _)

namespace Signals

/-- More loops bring no better class of builtins and loops, unless they are one loop with a binary
search in it. -/
theorem rank_baseGrowth_le {s s' : Signals} (hbuiltins : s'.builtins = s.builtins)
    (hsearch : s'.binarySearch = s.binarySearch) (hdepth : s.loopDepth ≤ s'.loopDepth)
    (hexcept : ¬ (s'.loopDepth = 1 ∧ s'.binarySearch = true)) :
    s.baseGrowth.rank ≤ s'.baseGrowth.rank := by
  have hmono := rank_loopGrowth_mono hdepth
  unfold baseGrowth
  rw [if_neg hexcept, hbuiltins]
  simp only [Growth.joinAll_append]
  split
  · next hsingle =>
    have hdeeper : 2 ≤ s'.loopDepth := by
      have hnot : s'.loopDepth ≠ 1 := fun hone => hexcept ⟨hone, hsearch.trans hsingle.2⟩
      omega
    have hquadratic := rank_loopGrowth_mono hdeeper
    have hrank : (Growth.joinAll (loopGrowth? 2).toList).rank = 4 := rfl
    have hlogarithmic : Growth.logarithmic.rank = 1 := rfl
    rw [Growth.rank_join]
    omega
  · rw [Growth.rank_join, Growth.rank_join]
    omega

theorem rank_verdict_le {s s' : Signals} (hbuiltins : s'.builtins = s.builtins)
    (hcalls : s'.selfCalls = s.selfCalls) (htail : s'.tailRecursive = s.tailRecursive)
    (hdivide : s'.divideAndConquer = s.divideAndConquer)
    (hsearch : s'.binarySearch = s.binarySearch) (hsorting : s'.sorting = s.sorting)
    (hfactorial : s'.factorial = s.factorial) (hdepth : s.loopDepth ≤ s'.loopDepth)
    (hexcept : ¬ (s'.loopDepth = 1 ∧ s'.binarySearch = true)) :
    s.verdict.rank ≤ s'.verdict.rank := by
  have hbase := rank_baseGrowth_le hbuiltins hsearch hdepth hexcept
  have hrecursion : s'.recursionGrowth? = s.recursionGrowth? := by
    rw [recursionGrowth?, recursionGrowth?, hcalls, htail, hdivide]
  simp only [verdict, hrecursion, hsorting, hfactorial, Growth.joinAll_append, Growth.rank_join,
    Growth.joinAll_cons, Growth.joinAll_nil, Growth.join_constant]
  omega

end Signals

open Body in
/-- A line is put into a body of at most 999 lines.  A blank line or a comment leaves the loop depth
alone; a line that starts a loop and closes none leaves it or adds one.  The class of the function
does not get better by such a line when it changes no other signal, but for a body that then has a
binary search in a single loop. -/
theorem loopDepth_insert (family : Family) (before after : List Text) (line body body' : Text)
    (hbody : body.HasLines (before ++ after)) (hbody' : body'.HasLines (before ++ line :: after))
    (hcount : before.length + after.length ≤ 999) :
    (isSkipped (trim line) = true → loopDepth family body' = loopDepth family body)
      ∧ (opensLoop family line = true →
        loopDepth family body' = loopDepth family body
          ∨ loopDepth family body' = loopDepth family body + 1)
      ∧ (isSkipped (trim line) = true ∨ opensLoop family line = true →
        ∀ tag name : Text, familyOfTag tag = family →
          let s := Signals.ofBody (builtinsOfTag tag) family name body
          let s' := Signals.ofBody (builtinsOfTag tag) family name body'
          s'.builtins = s.builtins → s'.selfCalls = s.selfCalls →
          s'.tailRecursive = s.tailRecursive → s'.divideAndConquer = s.divideAndConquer →
          s'.binarySearch = s.binarySearch → s'.sorting = s.sorting →
          s'.factorial = s.factorial → ¬ (s'.loopDepth = 1 ∧ s'.binarySearch = true) →
          ∀ (lines lines' : List Text) (span span' : Span), span.name = name → span'.name = name →
            span.body? lines = some body → span'.body? lines' = some body' →
            (analyzeSpan tag lines span).growth.rank ≤
              (analyzeSpan tag lines' span').growth.rank) := by
  have hshort : before.length + after.length < loopScanLines := by
    unfold loopScanLines
    omega
  have hskipped := loopDepth_insert_skipped family hbody hbody' hshort
  have hloop := loopDepth_insert_loop family hbody hbody' hshort
  refine ⟨hskipped, hloop, ?_⟩
  intro hline tag name hfamily s s' hbuiltins hcalls htail hdivide hsearch hsorting hfactorial
    hexcept lines lines' span span' hname hname' hspan hspan'
  have hdepth : s.loopDepth ≤ s'.loopDepth := by
    show loopDepth family body ≤ loopDepth family body'
    rcases hline with hline | hline
    · exact Nat.le_of_eq (hskipped hline).symm
    · have hgrown := hloop hline
      omega
  rw [analyzeSpan_of_body hspan, analyzeSpan_of_body hspan', hfamily, hname, hname']
  show (Estimate.ofBody _ _ name body).growth.rank ≤ (Estimate.ofBody _ _ name body').growth.rank
  rw [Estimate.ofBody_growth, Estimate.ofBody_growth]
  exact Signals.rank_verdict_le hbuiltins hcalls htail hdivide hsearch hsorting hfactorial hdepth
    hexcept

/-- A loop put inside another one, behind which both are closed. -/
theorem loopDepth_insert_nested :
    let before := ["  for (const x of a) \x7b".toList]
    let after := ["    g(x);", "  \x7d"].map String.toList
    let line := "    for (const y of a)".toList
    let body := joinLines (before ++ after)
    let body' := joinLines (before ++ line :: after)
    let span := Span.onLines "f".toList 1 3
    let span' := Span.onLines "f".toList 1 4
    body.HasLines (before ++ after) ∧ body'.HasLines (before ++ line :: after)
      ∧ before.length + after.length ≤ 999 ∧ Body.opensLoop .script line = true
      ∧ Body.loopDepth .script body = 1 ∧ Body.loopDepth .script body' = 2
      ∧ (analyzeSpan "js".toList (before ++ after) span).growth.rank ≤
        (analyzeSpan "js".toList (before ++ line :: after) span').growth.rank := by
  intro before after line body body' span span'
  have hbody : body.HasLines (before ++ after) := Or.inl (by decide +kernel)
  have hbody' : body'.HasLines (before ++ line :: after) := Or.inl (by decide +kernel)
  have hcount : before.length + after.length ≤ 999 := by decide
  have hline : Body.opensLoop .script line = true := by decide +kernel
  obtain ⟨-, hdepth, hclass⟩ :=
    loopDepth_insert .script before after line body body' hbody hbody' hcount
  have hone : Body.loopDepth .script body = 1 := by decide +kernel
  have htwo : Body.loopDepth .script body' = 2 := by
    have hnot : Body.loopDepth .script body' ≠ 1 := by decide +kernel
    have hgrown := hdepth hline
    omega
  refine ⟨hbody, hbody', hcount, hline, hone, htwo, ?_⟩
  apply hclass (Or.inr hline) "js".toList "f".toList
  all_goals decide +kernel

end GrowthEstimate
