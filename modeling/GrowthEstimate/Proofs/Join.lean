import GrowthEstimate.Report

/-!
# The join as an operation

Joining classes takes the maximum of their ranks, so the join is associative and commutative,
constant time is neutral for it, and a list of classes has one join in every order.

* `joinAll_append`: the join of two lists is the join of their joins;
* `rank_joinAll_le_iff`: the join of a list is its least upper bound;
* `overallOf_eq_joinAll`: the worst class of a report is the join of its functions' classes.
-/

namespace GrowthEstimate

namespace Growth

/-! ## Laws of two classes -/

theorem join_comm (a b : Growth) : join a b = join b a := by
  apply rank_injective
  rw [rank_join, rank_join, Nat.max_comm]

theorem join_assoc (a b c : Growth) : join (join a b) c = join a (join b c) := by
  apply rank_injective
  simp only [rank_join, Nat.max_assoc]

@[simp] theorem constant_join (a : Growth) : join constant a = a := by
  apply rank_injective
  rw [rank_join]
  exact Nat.zero_max a.rank

@[simp] theorem join_constant (a : Growth) : join a constant = a := by
  rw [join_comm, constant_join]

/-! ## Laws of a list of classes -/

theorem foldl_join (start : Growth) (classes : List Growth) :
    classes.foldl join start = join start (joinAll classes) := by
  induction classes generalizing start with
  | nil => simp [joinAll]
  | cons g classes ih =>
    have hall : joinAll (g :: classes) = join g (joinAll classes) := by
      rw [joinAll, List.foldl_cons, ih, constant_join]
    rw [List.foldl_cons, ih, hall, join_assoc]

@[simp] theorem joinAll_nil : joinAll [] = constant := rfl

@[simp] theorem joinAll_cons (g : Growth) (classes : List Growth) :
    joinAll (g :: classes) = join g (joinAll classes) := by
  rw [joinAll, List.foldl_cons, foldl_join, constant_join]

@[simp] theorem joinAll_append (left right : List Growth) :
    joinAll (left ++ right) = join (joinAll left) (joinAll right) := by
  rw [joinAll, List.foldl_append, foldl_join]
  rfl

theorem rank_joinAll_le_iff {classes : List Growth} {bound : Nat} :
    (joinAll classes).rank ≤ bound ↔ ∀ g ∈ classes, g.rank ≤ bound := by
  induction classes with
  | nil => simp [rank]
  | cons g classes ih => rw [joinAll_cons, rank_join, Nat.max_le, ih, List.forall_mem_cons]

theorem rank_le_rank_joinAll {classes : List Growth} {g : Growth} (h : g ∈ classes) :
    g.rank ≤ (joinAll classes).rank :=
  rank_joinAll_le_iff.1 (Nat.le_refl _) g h

theorem descending_pairwise : descending.Pairwise fun a b => b.rank < a.rank := by decide

end Growth

/-! ## The worst class of a report -/

/-- A scan from the worst class on stops no later than at a class that occurs. -/
theorem rank_le_rank_overallOf {functions : List FunctionReport} {f : FunctionReport}
    (hf : f ∈ functions) : f.growth.rank ≤ (overallOf functions).rank := by
  have hd : f.growth ∈ Growth.descending := List.mem_reverse.2 (Growth.mem_ascending _)
  have occurs : functions.any (·.growth == f.growth) = true :=
    List.any_eq_true.2 ⟨f, hf, beq_self_eq_true f.growth⟩
  rw [overallOf]
  cases hfind : Growth.descending.find? fun g => functions.any (·.growth == g) with
  | none => exact absurd occurs (List.find?_eq_none.1 hfind _ hd)
  | some worst =>
    obtain ⟨_, before, behind, hsplit, hbefore⟩ := List.find?_eq_some_iff_append.1 hfind
    have sorted := Growth.descending_pairwise
    rw [hsplit] at hd sorted
    rcases List.mem_append.1 hd with hmem | hmem
    · have absent := hbefore _ hmem
      rw [occurs] at absent
      cases absent
    · rcases List.mem_cons.1 hmem with heq | hmem
      · rw [heq]
        exact Nat.le_refl _
      · exact Nat.le_of_lt ((List.pairwise_cons.1 (List.pairwise_append.1 sorted).2.1).1 _ hmem)

theorem overallOf_eq_joinAll (functions : List FunctionReport) :
    overallOf functions = Growth.joinAll (functions.map (·.growth)) := by
  apply Growth.rank_injective
  apply Nat.le_antisymm
  · by_cases h : functions = []
    · subst h
      exact Nat.le_refl _
    · obtain ⟨f, hf, hworst⟩ := mem_of_overallOf h
      rw [← hworst]
      exact Growth.rank_le_rank_joinAll (List.mem_map_of_mem hf)
  · rw [Growth.rank_joinAll_le_iff]
    intro g hg
    obtain ⟨f, hf, rfl⟩ := List.mem_map.1 hg
    exact rank_le_rank_overallOf hf

theorem overallOf_append (left right : List FunctionReport) :
    overallOf (left ++ right) = (overallOf left).join (overallOf right) := by
  simp only [overallOf_eq_joinAll, List.map_append, Growth.joinAll_append]

end GrowthEstimate
