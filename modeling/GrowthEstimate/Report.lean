import GrowthEstimate.Growth
import GrowthEstimate.Json

/-!
# Reports

The estimate of each function, and what they come to together: the worst class, the average
confidence, and how many functions there are of each class.

* `mem_of_overallOf`: the worst class is that of one of the functions;
* `count_pos_of_mem_distribution`: the distribution lists only classes that occur.
-/

namespace GrowthEstimate

/-- The estimate of one function, with the lines of its body. -/
structure FunctionReport where
  name : Text
  growth : Growth
  confidence : Float
  rationale : List Text
  first : Int
  last : Int

/-- The outcome of one analysis; warnings say in what way it fell short. -/
structure Report where
  overall : Growth
  functions : List FunctionReport
  language : Text
  warnings : List Text

/-- The worst class among the functions; constant when there are none. -/
def overallOf (functions : List FunctionReport) : Growth :=
  (Growth.descending.find? fun g => functions.any (·.growth == g)).getD .constant

def countOf (functions : List FunctionReport) (g : Growth) : Nat :=
  functions.countP (·.growth == g)

namespace Report

def ofFunctions (language : Text) (functions : List FunctionReport) (warnings : List Text) :
    Report := ⟨overallOf functions, functions, language, warnings⟩

/-- A report without any function, for a text that was not analysed. -/
def degraded (language warning : Text) : Report := ⟨.constant, [], language, [warning]⟩

/-- The sum of the confidences over their number; zero without functions.  The doubles are added from
the first function on, and what a sum loses by rounding is not made up for. -/
def averageConfidence (r : Report) : Float :=
  if r.functions.isEmpty then 0
  else r.functions.foldl (fun sum f => sum + f.confidence) 0 / Float.ofNat r.functions.length

/-- The classes that occur, the worst first, with the number of functions of each. -/
def distribution (r : Report) : List (Growth × Nat) :=
  (Growth.descending.map fun g => (g, countOf r.functions g)).filter fun (_, n) => 0 < n

end Report

/-! ## As JSON -/

def FunctionReport.toJson (f : FunctionReport) : Json := .ofMembers
  [ ("name", .text f.name), ("complexity", .text f.growth.symbol),
    ("confidence", .float f.confidence), ("rationale", .ofTexts f.rationale),
    ("line_start", .int f.first), ("line_end", .int f.last) ]

def Report.toJson (r : Report) : Json := .ofMembers
  [ ("overall", .text r.overall.symbol),
    ("functions", .array (r.functions.map FunctionReport.toJson)),
    ("language", .text r.language), ("warnings", .ofTexts r.warnings) ]

/-! ## Laws of the worst class and the distribution -/

theorem mem_of_overallOf {functions : List FunctionReport} (h : functions ≠ []) :
    ∃ f ∈ functions, f.growth = overallOf functions := by
  rw [overallOf]
  cases hf : Growth.descending.find? fun g => functions.any (·.growth == g) with
  | some g =>
    have hg := List.find?_some hf
    obtain ⟨f, hm, hfg⟩ := List.any_eq_true.1 hg
    exact ⟨f, hm, eq_of_beq hfg⟩
  | none =>
    obtain ⟨f, hm⟩ := List.exists_mem_of_ne_nil _ h
    have hd : f.growth ∈ Growth.descending := List.mem_reverse.2 (Growth.mem_ascending _)
    have hnone := List.find?_eq_none.1 hf _ hd
    exact absurd (List.any_eq_true.2 ⟨f, hm, beq_self_eq_true f.growth⟩) hnone

theorem count_pos_of_mem_distribution {r : Report} {g : Growth} {n : Nat}
    (h : (g, n) ∈ r.distribution) : 0 < n ∧ n = countOf r.functions g := by
  rw [Report.distribution, List.mem_filter, List.mem_map] at h
  obtain ⟨⟨g', _, hp⟩, hn⟩ := h
  cases hp
  exact ⟨of_decide_eq_true hn, rfl⟩

end GrowthEstimate
