import GrowthEstimate.Export
import GrowthEstimate.Proofs.JsonReading
import GrowthEstimate.Proofs.ReportReading

/-!
# Exported reports read back

A report written as JSON is read back as the report, with any number of spaces per level.  The one
double that JSON has no word for is no number.

* `isFinite_of_fits`: a confidence that fits and is a number is finite;
* `Report.isPlain_toJson`: so are then all doubles of the report;
* `read_renderJson`: the text is read back, whatever the names, notes and numbers in it.
-/

namespace GrowthEstimate

namespace Json

theorem itemsPlain_iff (items : List Json) : ItemsPlain items ↔ ∀ j ∈ items, IsPlain j := by
  induction items with
  | nil => simp [ItemsPlain]
  | cons item rest ih => simp [ItemsPlain, ih]

theorem isPlain_ofTexts (texts : List Text) : IsPlain (.ofTexts texts) := by
  rw [ofTexts, IsPlain, itemsPlain_iff]
  intro j hj
  obtain ⟨s, -, rfl⟩ := List.mem_map.1 hj
  trivial

end Json

theorem lt_iff_unpack (x y : Float) :
    x < y ↔ Float.Model.UnpackedFloat.lt x.toModel.unpack y.toModel.unpack = true :=
  decide_eq_true_iff

/-- What is neither above one nor below zero is finite, unless it is no number. -/
theorem FunctionReport.isFinite_of_fits {f : FunctionReport} (h : f.Fits)
    (hnumber : f.confidence.isNaN = false) : f.confidence.isFinite = true := by
  have hfinite : f.confidence.isFinite = f.confidence.toModel.unpack.isFinite := rfl
  have hnan : f.confidence.isNaN = f.confidence.toModel.unpack.isNaN := rfl
  obtain ⟨habove, hbelow⟩ := h
  rw [lt_iff_unpack] at habove hbelow
  rw [hnan] at hnumber
  rw [hfinite]
  cases hunpack : f.confidence.toModel.unpack with
  | zero | finite => rfl
  | notANumber =>
    rw [hunpack] at hnumber
    cases hnumber
  | infinity s =>
    rw [hunpack] at habove hbelow
    cases s with
    | positive => exact absurd (by decide +kernel) habove
    | negative => exact absurd (by decide +kernel) hbelow

theorem Report.isPlain_toJson {r : Report} (h : ∀ f ∈ r.functions, f.confidence.isFinite = true) :
    Json.IsPlain r.toJson := by
  have hfunctions : Json.ItemsPlain (r.functions.map FunctionReport.toJson) := by
    rw [Json.itemsPlain_iff]
    intro j hj
    obtain ⟨f, hf, rfl⟩ := List.mem_map.1 hj
    exact ⟨trivial, trivial, h f hf, Json.isPlain_ofTexts _, trivial, trivial, trivial⟩
  exact ⟨trivial, hfunctions, trivial, Json.isPlain_ofTexts _, trivial⟩

namespace Export

/-- What a report is written as is one JSON value, the same for all indents, and it is read back as
the report. -/
theorem read_renderJson {r : Report} (hfits : r.Fits)
    (hnumbers : ∀ f ∈ r.functions, f.confidence.isNaN = false) :
    (∀ indent, Json.parse? (renderJson indent r) = some r.toJson)
      ∧ ∀ indent, (Json.parse? (renderJson indent r)).map Report.read = some (.accepted r) := by
  have hfinite : Json.IsPlain r.toJson :=
    Report.isPlain_toJson fun f hf => FunctionReport.isFinite_of_fits (hfits f hf) (hnumbers f hf)
  have hparse (indent : Option Nat) : Json.parse? (renderJson indent r) = some r.toJson :=
    Json.parse_write _ hfinite
  refine ⟨hparse, fun indent => ?_⟩
  rw [hparse, Option.map_some, Report.read_toJson hfits]

/-- A name with a quote, a line separator and a character of two code units, a control character in
a note, and a worst class that is none of the function's. -/
theorem read_renderJson_escapes :
    let r : Report :=
      ⟨.factorial,
        [⟨"\"a\\\u2028😀".toList, .linear, 0.1, [['\x00', '\n'], []], -3, 12⟩],
        "\u0007".toList, []⟩
    Json.parse? (renderJson none r) = some r.toJson
      ∧ (Json.parse? (renderJson (some 3) r)).map Report.read = some (.accepted r) := by
  intro r
  have hfits : r.Fits := by
    intro f hf
    rw [List.mem_singleton.1 hf]
    exact ⟨by decide +kernel, by decide +kernel⟩
  have hnumbers : ∀ f ∈ r.functions, f.confidence.isNaN = false := by
    intro f hf
    rw [List.mem_singleton.1 hf]
    decide +kernel
  obtain ⟨hparse, hread⟩ := read_renderJson hfits hnumbers
  exact ⟨hparse none, hread (some 3)⟩

end Export

end GrowthEstimate
