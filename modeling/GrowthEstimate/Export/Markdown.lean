import GrowthEstimate.Decimal.Magnitude
import GrowthEstimate.Report
import GrowthEstimate.Text.Lines

/-!
# Reports as Markdown

A summary, the warnings, the distribution of the classes and one section per function.  Parts that
would be empty are left out.  Names and messages are inserted as they are.
-/

namespace GrowthEstimate.Export.Markdown

/-- The file name that is shown: none when there is none or it is empty. -/
def shownFile? (fileName : Option Text) : Option Text := fileName.filter (!·.isEmpty)

def labelled (label : String) (value : Text) : Text :=
  "**".toList ++ label.toList ++ ":** ".toList ++ value

def item (content : Text) : Text := "- ".toList ++ content

def heading (r : Report) (fileName : Option Text) : List Text :=
  ["# Algorithm Complexity Analysis Report".toList, [], labelled "Language" r.language]
    ++ ((shownFile? fileName).map (labelled "File")).toList ++ [[]]

def summary (r : Report) : List Text :=
  [ "## Summary".toList, [], item (labelled "Overall Complexity" r.overall.symbol),
    item (labelled "Functions Analyzed" (Decimal.ofNat r.functions.length)) ]
    ++ (if r.functions.isEmpty then []
        else [item (labelled "Average Confidence" (Decimal.percentage r.averageConfidence))])
    ++ [[]]

def warnings (r : Report) : List Text :=
  if r.warnings.isEmpty then []
  else "## Warnings".toList :: [] :: r.warnings.map item ++ [[]]

def distributionRow (total : Nat) (g : Growth) (count : Nat) : Text :=
  let share := Float.ofNat count / Float.ofNat total
  "| ".toList ++ g.symbol ++ " | ".toList ++ Decimal.ofNat count ++ " | ".toList
    ++ Decimal.percentage share ++ " |".toList

def distribution (r : Report) : List Text :=
  [ "## Complexity Distribution".toList, [], "| Complexity | Count | Percentage |".toList,
    "|------------|-------|------------|".toList ]
    ++ (r.distribution.map fun (g, count) => distributionRow r.functions.length g count) ++ [[]]

def functionSection (f : FunctionReport) : List Text :=
  [ "### `".toList ++ f.name ++ "`".toList, [],
    item (labelled "Complexity" f.growth.symbol),
    item (labelled "Confidence" (Decimal.percentage f.confidence)),
    item (labelled "Lines" (Decimal.ofInt f.first ++ " - ".toList ++ Decimal.ofInt f.last)),
    item (labelled "Description" f.growth.description) ]
    ++ (if f.rationale.isEmpty then []
        else item "**Analysis Details:**".toList
          :: f.rationale.map fun reason => "  ".toList ++ item reason)
    ++ [[]]

def details (r : Report) : List Text :=
  if r.functions.isEmpty then []
  else distribution r ++ "## Function Analysis".toList :: [] :: r.functions.flatMap functionSection

def lines (r : Report) (fileName : Option Text) : List Text :=
  heading r fileName ++ summary r ++ warnings r ++ details r

def render (r : Report) (fileName : Option Text) : Text := Text.joinLines (lines r fileName)

end GrowthEstimate.Export.Markdown
