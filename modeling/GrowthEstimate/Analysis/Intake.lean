import GrowthEstimate.Export
import GrowthEstimate.Failure
import GrowthEstimate.Report.Reading

/-!
# Calls with untyped arguments

The calls of the library for callers whose language tag may be absent and whose reports are
untyped values.  A report has to name its language, so a call that makes one fails without a tag;
a text is looked at before its tag is.

* `analyzeTagged_eq_ok_iff`: exactly which calls succeed, and with what report.
-/

namespace GrowthEstimate

open Schema (Checked)

/-- The tag, which has to be a text in a report. -/
def requireTag : Option Text → Except Failure Text
  | some tag => .ok tag
  | none => .error (.invalid [⟨["language".toList], .notText⟩])

def analyzeTagged (source : Text) (tag : Option Text) : Except Failure Report :=
  match validate hardLimit source with
  | .error reason => .error (.rejected reason)
  | .ok () => (requireTag tag).map (analyzeText source)

/-- The report that is made of the given functions; the first one that does not fit is the
failure. -/
def assembleReport (tag : Option Text) (functions : List Json) (warnings : List Text) :
    Except Failure Report := do
  let functions ← functions.mapM fun f => (FunctionReport.read f).orFail
  let tag ← requireTag tag
  return Report.ofFunctions tag functions warnings

def degradedReport (tag : Option Text) (warning : Text) : Except Failure Report :=
  (requireTag tag).map fun tag => Report.degraded tag warning

/-- A report in the format of a name; a report that fails is looked at before the name is. -/
def exportAs (format : Text) (report : Except Failure Report) (fileName : Option Text) :
    Except Failure Text := do
  let report ← report
  let format ← orUnknown (Export.Format.ofName format)
  return Export.render format report fileName

theorem analyzeTagged_eq_ok_iff {source : Text} {tag : Option Text} {r : Report} :
    analyzeTagged source tag = .ok r ↔
      validate hardLimit source = .ok () ∧ ∃ t, tag = some t ∧ r = analyzeText source t := by
  rw [analyzeTagged]
  cases validate hardLimit source with
  | error reason => simp
  | ok _ =>
    cases tag with
    | none => simp [requireTag, Except.map]
    | some t => simp [requireTag, Except.map, eq_comm]

end GrowthEstimate
