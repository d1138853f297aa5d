import GrowthEstimate.Report
import GrowthEstimate.Schema.Reader

/-!
# Reading reports

Reports and the functions in them can be handed in as untyped values.  What is given is kept as it
is: the worst class of a report is not computed anew.
-/

namespace GrowthEstimate

open Schema

def FunctionReport.read : Reader FunctionReport := record fun j =>
  FunctionReport.mk
    <$> required "name" Schema.text j
    <*> required "complexity" Schema.growth j
    <*> required "confidence" share j
    <*> optional "rationale" [] (list Schema.text) j
    <*> required "line_start" int j
    <*> required "line_end" int j

def Report.read : Reader Report := record fun j =>
  Report.mk
    <$> optional "overall" .constant Schema.growth j
    <*> optional "functions" [] (list FunctionReport.read) j
    <*> required "language" Schema.text j
    <*> optional "warnings" [] (list Schema.text) j

end GrowthEstimate
