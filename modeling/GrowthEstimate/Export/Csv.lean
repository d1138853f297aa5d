import GrowthEstimate.Decimal.Layout
import GrowthEstimate.Report

/-!
# Reports as comma-separated values

One record for the column names and one per function.  A record ends in a line feed.  A field is
quoted when it holds what ends a field or a record, or a quote; a carriage return ends neither.  A
quote inside a quoted field is written twice.

* `field_of_plain`: a field without these three characters is written as it is.
-/

namespace GrowthEstimate.Export.Csv

/-- Numbers are written out down to the fourth place; an exponent has two digits and a sign. -/
def numberLayout : Decimal.Layout where
  leastPoint := -3
  greatestPoint := 16
  exponentDigits := 2
  plusSign := true
  notNumber := "nan".toList

def needsQuotes (c : Char) : Bool := c == ',' || c == '"' || c == '\n'

def doubleQuotes (s : Text) : Text := s.flatMap fun c => if c == '"' then ['"', '"'] else [c]

def field (s : Text) : Text := if s.any needsQuotes then '"' :: doubleQuotes s ++ ['"'] else s

def record (fields : List Text) : Text := [','].intercalate (fields.map field) ++ ['\n']

def columns : List Text :=
  [ "Function".toList, "Complexity".toList, "Confidence".toList, "Line Start".toList,
    "Line End".toList, "Description".toList ]

def functionFields (f : FunctionReport) : List Text :=
  [ f.name, f.growth.symbol, Decimal.floatText numberLayout f.confidence, Decimal.ofInt f.first,
    Decimal.ofInt f.last, f.growth.description ]

def render (r : Report) : Text := (columns :: r.functions.map functionFields).flatMap record

theorem field_of_plain {s : Text} (h : ∀ c ∈ s, needsQuotes c = false) : field s = s := by
  have hn : s.any needsQuotes = false := by
    rw [List.any_eq_false]
    intro c hc
    simp [h c hc]
  simp [field, hn]

end GrowthEstimate.Export.Csv
