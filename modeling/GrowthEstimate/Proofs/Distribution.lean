import Mathlib.Algebra.BigOperators.Group.List.Basic
import Mathlib.Algebra.GroupWithZero.Nat
import Mathlib.Data.List.Dedup
import GrowthEstimate.Proofs.Join

/-!
# The worst class and the distribution

The worst class of a list of functions depends only on which classes occur.  The distribution of a
report counts each of them once, the worst first, so it begins with the worst class and its counts
add up to the number of functions.

* `overallOf_eq_of_mem_iff`: neither order nor repetition changes the worst class;
* `mem_distribution_iff`, `distribution_pairwise`: each class that occurs, once and with its count;
* `sum_distribution`, `length_distribution`: every function is counted, and every class;
* `overallOf_eq_head?_distribution`: the first class is the worst one;
* `overall_and_distribution`: the worst class and the distribution of a report.
-/

namespace GrowthEstimate

/-! ## The worst class -/

theorem rank_overallOf_le_iff {functions : List FunctionReport} {bound : Nat} :
    (overallOf functions).rank ≤ bound ↔ ∀ f ∈ functions, f.growth.rank ≤ bound := by
  rw [overallOf_eq_joinAll, Growth.rank_joinAll_le_iff, List.forall_mem_map]

theorem overallOf_eq_of_mem_iff {functions others : List FunctionReport}
    (h : ∀ f, f ∈ others ↔ f ∈ functions) : overallOf others = overallOf functions := by
  apply Growth.rank_injective
  apply Nat.le_antisymm
  · exact rank_overallOf_le_iff.2 fun f hf => rank_le_rank_overallOf ((h f).1 hf)
  · exact rank_overallOf_le_iff.2 fun f hf => rank_le_rank_overallOf ((h f).2 hf)

/-! ## The distribution -/

theorem countOf_eq_count (functions : List FunctionReport) (g : Growth) :
    countOf functions g = (functions.map (·.growth)).count g := by
  rw [countOf, List.count, List.countP_map]
  rfl

/-- The counts of all classes add up to the number of classes counted. -/
theorem Growth.sum_counts (classes : List Growth) :
    (descending.map fun g => classes.count g).sum = classes.length := by
  induction classes with
  | nil => rfl
  | cons worst classes ih =>
    have hone : (descending.map fun g => if worst == g then 1 else 0).sum = 1 := by
      cases worst <;> decide
    simp only [List.count_cons, List.length_cons, List.sum_map_add, hone, ih]

namespace Report

variable {r : Report}

theorem mem_distribution_iff {g : Growth} {n : Nat} :
    (g, n) ∈ r.distribution ↔ 0 < n ∧ n = (r.functions.map (·.growth)).count g := by
  rw [← countOf_eq_count]
  refine ⟨count_pos_of_mem_distribution, ?_⟩
  rintro ⟨hpos, rfl⟩
  have hmem : g ∈ Growth.descending := List.mem_reverse.2 (Growth.mem_ascending g)
  exact List.mem_filter.2 ⟨List.mem_map_of_mem hmem, decide_eq_true hpos⟩

theorem distribution_pairwise :
    (r.distribution.map Prod.fst).Pairwise fun a b => b.rank < a.rank := by
  have hall : (Growth.descending.map fun g => (g, countOf r.functions g)).Pairwise
      fun a b => b.1.rank < a.1.rank :=
    List.pairwise_map.2 Growth.descending_pairwise
  exact List.pairwise_map.2 (hall.filter _)

/-- The classes that occur and those of the functions are the same ones. -/
theorem length_distribution (r : Report) :
    r.distribution.length = (r.functions.map (·.growth)).dedup.length := by
  have hnodup : (r.distribution.map Prod.fst).Nodup := by
    refine r.distribution_pairwise.imp ?_
    rintro a b hrank rfl
    exact Nat.lt_irrefl _ hrank
  have hmem (g : Growth) :
      g ∈ r.distribution.map Prod.fst ↔ g ∈ (r.functions.map (·.growth)).dedup := by
    simp [mem_distribution_iff, List.count_pos_iff]
  rw [← List.length_map Prod.fst]
  exact ((List.perm_ext_iff_of_nodup hnodup (List.nodup_dedup _)).2 hmem).length_eq

/-- A filter that leaves out only counts of zero does not change their sum. -/
theorem sum_filter {keep : Growth × Nat → Bool} (h : ∀ entry, keep entry = false → entry.2 = 0)
    (counts : List (Growth × Nat)) :
    ((counts.filter keep).map Prod.snd).sum = (counts.map Prod.snd).sum := by
  induction counts with
  | nil => rfl
  | cons entry counts ih =>
    cases hkeep : keep entry with
    | true => simp [hkeep, ih]
    | false => simp [hkeep, h entry hkeep, ih]

theorem sum_distribution : (r.distribution.map Prod.snd).sum = r.functions.length := by
  rw [distribution, sum_filter (by simp), List.map_map, ← List.length_map (f := (·.growth)),
    ← Growth.sum_counts]
  exact congrArg List.sum (List.map_congr_left fun g _ => countOf_eq_count r.functions g)

/-- The scan for the worst class is the one for the first class of the distribution. -/
theorem overallOf_eq_head?_distribution :
    overallOf r.functions = (r.distribution.head?.map Prod.fst).getD .constant := by
  have hoccurs : ∀ g, r.functions.any (·.growth == g) = decide (0 < countOf r.functions g) := by
    intro g
    rw [Bool.eq_iff_iff, decide_eq_true_iff, countOf, List.countP_pos_iff, List.any_eq_true]
  rw [overallOf, distribution, List.head?_filter, List.find?_map, Option.map_map]
  simp only [hoccurs]
  cases hfind : Growth.descending.find? fun g => decide (0 < countOf r.functions g) <;>
    simp [Function.comp_def, hfind]

theorem distribution_eq_nil_iff : r.distribution = [] ↔ r.functions = [] := by
  constructor
  · intro h
    have hlength := r.sum_distribution
    rw [h] at hlength
    exact List.length_eq_zero_iff.1 hlength.symm
  · intro h
    rw [List.eq_nil_iff_forall_not_mem]
    rintro ⟨g, n⟩ hmem
    obtain ⟨hpos, hn⟩ := mem_distribution_iff.1 hmem
    rw [h] at hn
    simp at hn
    omega

end Report

/-! ## Both together -/

/-- The scan for the worst class finds the join of all classes, which is their least upper bound and
does not change when functions are put in another order or repeated.  The distribution counts each
class that occurs once, the worst first, and begins with the worst class of the report. -/
theorem overall_and_distribution (functions : List FunctionReport) :
    overallOf functions = Growth.joinAll (functions.map (·.growth))
      ∧ (∀ bound : Growth, (overallOf functions).rank ≤ bound.rank ↔
          ∀ f ∈ functions, f.growth.rank ≤ bound.rank)
      ∧ overallOf [] = .constant
      ∧ (∀ others, (∀ f, f ∈ others ↔ f ∈ functions) → overallOf others = overallOf functions)
      ∧ (∀ others, overallOf (functions ++ others) = (overallOf functions).join (overallOf others))
      ∧ ∀ language warnings, let r := Report.ofFunctions language functions warnings
        r.overall = overallOf functions
          ∧ (r.distribution.map Prod.fst).Pairwise (fun a b => b.rank < a.rank)
          ∧ (∀ g n, (g, n) ∈ r.distribution ↔ 0 < n ∧ n = (functions.map (·.growth)).count g)
          ∧ (r.distribution.map Prod.snd).sum = functions.length
          ∧ (r.distribution = [] ↔ functions = [])
          ∧ ∀ first ∈ r.distribution.head?, first.1 = r.overall := by
  refine ⟨overallOf_eq_joinAll functions, fun bound => rank_overallOf_le_iff, rfl,
    fun others => overallOf_eq_of_mem_iff, overallOf_append functions, fun language warnings => ?_⟩
  refine ⟨rfl, Report.distribution_pairwise, fun g n => Report.mem_distribution_iff,
    Report.sum_distribution, Report.distribution_eq_nil_iff, ?_⟩
  intro first hfirst
  have hworst := (Report.ofFunctions language functions warnings).overallOf_eq_head?_distribution
  rw [Option.mem_def.1 hfirst] at hworst
  exact hworst.symm

/-- Two functions, and the same two in another order and repeated. -/
theorem overall_and_distribution_repeated :
    let f : FunctionReport := ⟨"f".toList, .linear, 0.9, [], 2, 3⟩
    let g : FunctionReport := ⟨"g".toList, .cubic, 0.85, [], 5, 9⟩
    let r := Report.ofFunctions "c".toList [g, f, g] []
    (∀ h, h ∈ [g, f, g] ↔ h ∈ [f, g]) ∧ overallOf [g, f, g] = overallOf [f, g]
      ∧ r.distribution.head? = some (.cubic, 2) ∧ r.overall = .cubic := by
  intro f g r
  have hsame : ∀ h, h ∈ [g, f, g] ↔ h ∈ [f, g] := by
    intro h
    simp only [List.mem_cons, List.not_mem_nil, or_false]
    tauto
  have hfirst : r.distribution.head? = some (.cubic, 2) := by decide
  obtain ⟨-, -, -, hothers, -, -⟩ := overall_and_distribution [f, g]
  obtain ⟨-, -, -, -, -, hreport⟩ := overall_and_distribution [g, f, g]
  obtain ⟨-, -, -, -, -, hworst⟩ := hreport "c".toList []
  exact ⟨hsame, hothers _ hsame, hfirst, (hworst _ hfirst).symm⟩

end GrowthEstimate
