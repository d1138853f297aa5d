import GrowthEstimate.Analysis
import GrowthEstimate.Proofs.Join
import GrowthEstimate.Proofs.SpanBody

/-!
# The verdict on a body

The estimate of a body is built in six steps that join, replace, set and cap.  The definitions
here say the same without any order of steps: which classes are joined in the end, and which one
signal decides the confidence.

* `ofSignals_growth`, `ofSignals_confidence`: the six steps come to the verdict;
* `certainty_mem`: every confidence is one of five doubles;
* `analyzeSpan_eq_verdict`: a span whose body can be read gets the verdict on that body.
-/

namespace GrowthEstimate

open Growth
open Text (joinLines)

/-! ## The verdict -/

def loopGrowth? : Nat → Option Growth
  | 0 => none
  | 1 => some .linear
  | 2 => some .quadratic
  | 3 => some .cubic
  | _ => some .polynomial

def loopCertainty (depth : Nat) : Float :=
  if depth ≤ 1 then 0.9 else if depth ≤ 3 then 0.85 else 0.7

namespace Signals

def recursionGrowth? (s : Signals) : Option Growth :=
  if s.selfCalls = 0 then none
  else if s.tailRecursive then some .linear
  else if s.divideAndConquer then some .linearithmic
  else if 1 < s.selfCalls then some .exponential
  else some .linear

/-- The class of builtins and loops.  A binary search in a single loop is logarithmic, whatever
the builtins are. -/
def baseGrowth (s : Signals) : Growth :=
  if s.loopDepth = 1 ∧ s.binarySearch then .logarithmic
  else joinAll (s.builtins.map (·.growth) ++ (loopGrowth? s.loopDepth).toList)

/-- The worst of the classes that the signals bring. -/
def verdict (s : Signals) : Growth :=
  joinAll
    ([s.baseGrowth] ++ s.recursionGrowth?.toList ++ (if s.sorting then [.linearithmic] else [])
      ++ (if s.factorial then [.factorial] else []))

/-- The confidence when neither a factorial nor dynamic programming is found. -/
def plainCertainty (s : Signals) : Float :=
  if 0 < s.selfCalls then
    if s.tailRecursive then 0.8
    else if s.divideAndConquer then 0.85
    else if s.fibonacciLike then 0.9
    else 0.7
  else loopCertainty s.loopDepth

/-- The confidence, by the first signal that decides it. -/
def certainty (s : Signals) : Float :=
  if s.factorial then 0.8 else if s.dynamicProgramming then 0.6 else s.plainCertainty

theorem fibonacciLike_ofBody {table : List Builtin} {family : Family} {name body : Text}
    (h : (ofBody table family name body).fibonacciLike = true) :
    1 < (ofBody table family name body).selfCalls := by
  have hb : Body.isFibonacciLike name body = true := h
  simp only [Body.isFibonacciLike, Bool.and_eq_true, decide_eq_true_eq] at hb
  exact hb.1.1

theorem plainCertainty_mem (s : Signals) : s.plainCertainty ∈ [(0.9 : Float), 0.85, 0.8, 0.7] := by
  unfold plainCertainty loopCertainty
  repeat' split
  all_goals simp

theorem certainty_mem (s : Signals) : s.certainty ∈ [(0.9 : Float), 0.85, 0.8, 0.7, 0.6] := by
  unfold certainty
  split
  · simp
  · split
    · simp
    · exact List.mem_append_left [0.6] s.plainCertainty_mem

end Signals

/-! ## What each step does to class and confidence -/

namespace Estimate

theorem withBuiltins_growth (builtins : List Builtin) (e : Estimate) :
    (e.withBuiltins builtins).growth = e.growth.join (joinAll (builtins.map (·.growth))) := by
  unfold withBuiltins
  induction builtins generalizing e with
  | nil => simp
  | cons b builtins ih =>
    rw [List.foldl_cons, ih, List.map_cons, joinAll_cons, ← join_assoc]
    rfl

theorem withBuiltins_confidence (builtins : List Builtin) (e : Estimate) :
    (e.withBuiltins builtins).confidence = e.confidence := by
  unfold withBuiltins
  induction builtins generalizing e with
  | nil => rfl
  | cons b builtins ih =>
    rw [List.foldl_cons, ih]
    rfl

theorem withLoops_growth (s : Signals) (e : Estimate) :
    (e.withLoops s).growth =
      if s.loopDepth = 1 ∧ s.binarySearch then .logarithmic
      else e.growth.join (joinAll (loopGrowth? s.loopDepth).toList) := by
  unfold withLoops
  rcases hd : s.loopDepth with _ | _ | _ | _ | depth
  · by_cases hcalls : s.selfCalls = 0 <;> simp [hcalls, loopGrowth?]
  · cases s.binarySearch <;> simp [loopGrowth?, joined]
  · simp [loopGrowth?, judged, joined]
  · simp [loopGrowth?, judged, joined]
  · simp [loopGrowth?, judged, joined]

theorem withLoops_confidence (s : Signals) (e : Estimate) (h : e.confidence = 0.9) :
    (e.withLoops s).confidence = loopCertainty s.loopDepth := by
  unfold withLoops
  rcases hd : s.loopDepth with _ | _ | _ | _ | depth
  · by_cases hcalls : s.selfCalls = 0 <;> simp only [hcalls] <;> exact h
  · cases s.binarySearch
    · exact h
    · rfl
  · rfl
  · rfl
  · have hone : ¬ depth + 4 ≤ 1 := by omega
    have hthree : ¬ depth + 4 ≤ 3 := by omega
    rw [loopCertainty, if_neg hone, if_neg hthree]
    rfl

theorem withRecursion_growth (s : Signals) (e : Estimate) :
    (e.withRecursion s).growth = e.growth.join (joinAll s.recursionGrowth?.toList) := by
  unfold withRecursion Signals.recursionGrowth?
  repeat' split
  all_goals simp [judged, joined]

/-- A body with one self-call is not like fibonacci, so its confidence is that of one call. -/
theorem withRecursion_confidence (s : Signals) (e : Estimate)
    (hfib : s.fibonacciLike = true → 1 < s.selfCalls)
    (h : e.confidence = loopCertainty s.loopDepth) :
    (e.withRecursion s).confidence = s.plainCertainty := by
  unfold withRecursion Signals.plainCertainty
  by_cases hcalls : s.selfCalls = 0
  · have hnone : ¬ 0 < s.selfCalls := by omega
    rw [if_pos hcalls, if_neg hnone, h]
  · have hsome : 0 < s.selfCalls := by omega
    rw [if_neg hcalls, if_pos hsome]
    cases htail : s.tailRecursive
    · cases hdc : s.divideAndConquer
      · by_cases hmany : 1 < s.selfCalls
        · cases hf : s.fibonacciLike <;> simp [hmany, judged]
        · have hf : s.fibonacciLike = false := by
            cases hf : s.fibonacciLike
            · rfl
            · exact absurd (hfib hf) hmany
          simp [hmany, hf, judged]
      · rfl
    · rfl

theorem withDynamicProgramming_growth (s : Signals) (e : Estimate) :
    (e.withDynamicProgramming s).growth = e.growth := by
  unfold withDynamicProgramming
  split <;> rfl

/-- Every confidence that can stand in front of the cap is above it. -/
theorem withDynamicProgramming_confidence (s : Signals) (e : Estimate)
    (h : e.confidence = s.plainCertainty) :
    (e.withDynamicProgramming s).confidence =
      if s.dynamicProgramming then 0.6 else s.plainCertainty := by
  have above : ∀ c ∈ [(0.9 : Float), 0.85, 0.8, 0.7], (0.6 : Float) < c := by decide
  unfold withDynamicProgramming
  cases s.dynamicProgramming
  · exact h
  · have hcap : (0.6 : Float) < e.confidence := by
      rw [h]
      exact above _ s.plainCertainty_mem
    simp [hcap]

theorem withSorting_growth (s : Signals) (e : Estimate) :
    (e.withSorting s).growth =
      e.growth.join (joinAll (if s.sorting then [.linearithmic] else [])) := by
  unfold withSorting
  split <;> simp [joined]

theorem withSorting_confidence (s : Signals) (e : Estimate) :
    (e.withSorting s).confidence = e.confidence := by
  unfold withSorting
  split <;> rfl

theorem withFactorial_growth (s : Signals) (e : Estimate) :
    (e.withFactorial s).growth =
      e.growth.join (joinAll (if s.factorial then [.factorial] else [])) := by
  unfold withFactorial
  split <;> simp [judged, joined]

theorem withFactorial_confidence (s : Signals) (e : Estimate) :
    (e.withFactorial s).confidence = if s.factorial then 0.8 else e.confidence := by
  unfold withFactorial
  split <;> rfl

/-! ## The steps together -/

theorem ofSignals_growth (s : Signals) : (ofSignals s).growth = s.verdict := by
  have hbase : (initial.withBuiltins s.builtins |>.withLoops s).growth = s.baseGrowth := by
    rw [withLoops_growth, withBuiltins_growth, Signals.baseGrowth, joinAll_append]
    simp [initial]
  rw [ofSignals, withFactorial_growth, withSorting_growth, withDynamicProgramming_growth,
    withRecursion_growth, hbase, Signals.verdict]
  simp only [joinAll_append, joinAll_cons, joinAll_nil, join_constant]

theorem ofSignals_confidence (s : Signals) (hfib : s.fibonacciLike = true → 1 < s.selfCalls) :
    (ofSignals s).confidence = s.certainty := by
  have hstart : (initial.withBuiltins s.builtins).confidence = 0.9 := by
    rw [withBuiltins_confidence, initial]
  have hloops := withLoops_confidence s _ hstart
  have hrecursion := withRecursion_confidence s _ hfib hloops
  have hcapped := withDynamicProgramming_confidence s _ hrecursion
  rw [ofSignals, withFactorial_confidence, withSorting_confidence, hcapped, Signals.certainty]

theorem ofBody_growth (table : List Builtin) (family : Family) (name body : Text) :
    (ofBody table family name body).growth =
      (Signals.ofBody table family name body).verdict :=
  ofSignals_growth _

theorem ofBody_confidence (table : List Builtin) (family : Family) (name body : Text) :
    (ofBody table family name body).confidence =
      (Signals.ofBody table family name body).certainty :=
  ofSignals_confidence _ Signals.fibonacciLike_ofBody

end Estimate

/-! ## Spans -/

/-- A span whose body is read gets the verdict on that body. -/
theorem analyzeSpan_of_body {span : Span} {lines : List Text} {body : Text}
    (h : span.body? lines = some body) (tag : Text) :
    analyzeSpan tag lines span =
      span.report (Estimate.ofBody (builtinsOfTag tag) (familyOfTag tag) span.name body) := by
  rw [analyzeSpan, estimateSpan, h]

/-- A span has a body when it carries one or when its range meets the lines.  Its report then has
its name and range, and the class and confidence that the signals of the body come to. -/
theorem analyzeSpan_eq_verdict (tag : Text) (lines : List Text) (span : Span)
    (h : span.inlineBody.isSome ∨ max (span.first - 1) 0 < min span.last lines.length) :
    let body := span.inlineBody.getD
      (joinLines ((lines.take span.last.toNat).drop (span.first - 1).toNat))
    let s := Signals.ofBody (builtinsOfTag tag) (familyOfTag tag) span.name body
    (analyzeSpan tag lines span).growth = s.verdict
      ∧ (analyzeSpan tag lines span).confidence = s.certainty
      ∧ (analyzeSpan tag lines span).name = span.name
      ∧ (analyzeSpan tag lines span).first = span.first
      ∧ (analyzeSpan tag lines span).last = span.last := by
  intro body s
  have hread : analyzeSpan tag lines span = span.report (Estimate.ofBody _ _ span.name body) :=
    analyzeSpan_of_body (Span.body?_eq_some h) tag
  rw [hread]
  refine ⟨?_, ?_, rfl, rfl, rfl⟩
  · exact Estimate.ofBody_growth _ _ _ _
  · exact Estimate.ofBody_confidence _ _ _ _

/-- A binary search in its only loop, with a builtin that would be linear. -/
theorem analyzeSpan_eq_verdict_search :
    let lines := ["def f(a):", "  low, high = 0, max(a)", "  while low < high:",
      "    mid = (low + high) / 2"].map String.toList
    let span := Span.onLines "f".toList 2 4
    max (span.first - 1) 0 < min span.last lines.length
      ∧ (analyzeSpan "Py".toList lines span).growth = .logarithmic
      ∧ (analyzeSpan "Py".toList lines span).confidence = 0.9 := by
  intro lines span
  have hrange : max (span.first - 1) 0 < min span.last lines.length := by decide
  obtain ⟨hgrowth, hconfidence, -⟩ :=
    analyzeSpan_eq_verdict "Py".toList lines span (Or.inr hrange)
  refine ⟨hrange, hgrowth.trans ?_, hconfidence.trans ?_⟩
  · decide +kernel
  · decide +kernel

end GrowthEstimate
