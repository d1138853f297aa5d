import Mathlib.Algebra.Order.BigOperators.Group.List
import Mathlib.Algebra.Order.Field.Basic
import Mathlib.Algebra.Order.Field.Rat
import GrowthEstimate.Proofs.Outcomes
import GrowthEstimate.Report.Reading

/-!
# Reports pass their own checks

A report is checked when it is made: the confidence of each function lies between 0 and 1, and so
does the average of the confidences.  The average is taken of the exact values of the doubles.

* `FunctionReport.read_toJson`, `Report.read_toJson`: what is written of a report whose confidences
  fit is read back as the report;
* `Report.fits_analyzeText`: those of an analysed text fit;
* `Report.exactAverage_bounds`: and so does their average.
-/

namespace GrowthEstimate

open Schema

/-! ## Written and read back -/

theorem itemsFrom_map {α : Type} {read : Reader α} {write : α → Json} {values : List α}
    (h : ∀ a ∈ values, read (write a) = .accepted a) (i : Nat) :
    itemsFrom read i (values.map write) = .accepted values := by
  induction values generalizing i with
  | nil => rfl
  | cons a rest ih =>
    rw [List.map_cons, itemsFrom, h a List.mem_cons_self,
      ih (fun b hb => h b (List.mem_cons_of_mem _ hb))]
    rfl

theorem list_texts (texts : List Text) : list Schema.text (.ofTexts texts) = .accepted texts := by
  have htext : ∀ s ∈ texts, Schema.text (.text s) = .accepted s := fun _ _ => rfl
  exact itemsFrom_map htext 0

theorem growth_symbol (g : Growth) : growth (.text g.symbol) = .accepted g := by
  rw [growth, Growth.ofSymbol?_symbol]
  rfl

/-- The confidence of a function is neither above 1 nor below 0. -/
def FunctionReport.Fits (f : FunctionReport) : Prop :=
  ¬ (1 : Float) < f.confidence ∧ ¬ f.confidence < 0

def Report.Fits (r : Report) : Prop := ∀ f ∈ r.functions, f.Fits

theorem FunctionReport.read_toJson {f : FunctionReport} (h : f.Fits) :
    FunctionReport.read f.toJson = .accepted f := by
  have hshare : share (.float f.confidence) = .accepted f.confidence := by
    rw [share, float, Checked.bind, if_neg h.1, if_neg h.2]
  have hfields : FunctionReport.read f.toJson =
      FunctionReport.mk
        <$> .accepted f.name
        <*> (Schema.growth (.text f.growth.symbol)).under "complexity".toList
        <*> (share (.float f.confidence)).under "confidence".toList
        <*> (list Schema.text (.ofTexts f.rationale)).under "rationale".toList
        <*> .accepted f.first
        <*> .accepted f.last := rfl
  rw [hfields, growth_symbol, hshare, list_texts]
  rfl

theorem Report.read_toJson {r : Report} (h : r.Fits) : Report.read r.toJson = .accepted r := by
  have hfunctions : list FunctionReport.read (.array (r.functions.map FunctionReport.toJson)) =
      .accepted r.functions :=
    itemsFrom_map (fun f hf => FunctionReport.read_toJson (h f hf)) 0
  have hfields : Report.read r.toJson =
      Report.mk
        <$> (growth (.text r.overall.symbol)).under "overall".toList
        <*> (list FunctionReport.read
          (.array (r.functions.map FunctionReport.toJson))).under "functions".toList
        <*> .accepted r.language
        <*> (list Schema.text (.ofTexts r.warnings)).under "warnings".toList := rfl
  rw [hfields, growth_symbol, hfunctions, list_texts]
  rfl

/-! ## The confidences of an analysed text -/

def exactValue (x : Float) : ℚ :=
  let v := Decimal.Magnitude.ofFloat x
  (if Decimal.isNegative x then -1 else 1) * (v.num / v.den)

/-- The average of the confidences as they are; zero without functions. -/
def Report.exactAverage (r : Report) : ℚ :=
  if r.functions = [] then 0
  else (r.functions.map fun f => exactValue f.confidence).sum / r.functions.length

theorem confidence_mem_of_analyzeText {source tag : Text} {f : FunctionReport}
    (h : f ∈ (analyzeText source tag).functions) :
    f.confidence ∈ [(0.9 : Float), 0.85, 0.8, 0.7, 0.6] := by
  obtain ⟨span, -, rfl⟩ := exists_span_of_mem_analyzeText h
  exact confidence_mem tag _ span

theorem Report.fits_analyzeText (source tag : Text) : (analyzeText source tag).Fits := by
  have hfits : ∀ c ∈ [(0.9 : Float), 0.85, 0.8, 0.7, 0.6], ¬ (1 : Float) < c ∧ ¬ c < 0 := by decide
  exact fun f hf => hfits _ (confidence_mem_of_analyzeText hf)

theorem Report.exactAverage_bounds (source tag : Text) :
    0 ≤ (analyzeText source tag).exactAverage ∧ (analyzeText source tag).exactAverage ≤ 1 := by
  have hvalues : ∀ c ∈ [(0.9 : Float), 0.85, 0.8, 0.7, 0.6],
      0 ≤ exactValue c ∧ exactValue c ≤ 1 := by
    decide +kernel
  rw [exactAverage]
  split
  · exact ⟨le_rfl, zero_le_one⟩
  · next hsome =>
    have hlength : (0 : ℚ) < (analyzeText source tag).functions.length :=
      Nat.cast_pos.2 (List.length_pos_iff.2 hsome)
    have hbounds : ∀ v ∈ (analyzeText source tag).functions.map fun f => exactValue f.confidence,
        0 ≤ v ∧ v ≤ 1 := by
      intro v hv
      obtain ⟨f, hf, rfl⟩ := List.mem_map.1 hv
      exact hvalues _ (confidence_mem_of_analyzeText hf)
    have hsum := List.sum_le_card_nsmul _ 1 fun v hv => (hbounds v hv).2
    rw [List.length_map, nsmul_one] at hsum
    exact ⟨div_nonneg (List.sum_nonneg fun v hv => (hbounds v hv).1) hlength.le,
      (div_le_one hlength).2 hsum⟩

end GrowthEstimate
