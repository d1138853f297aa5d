import GrowthEstimate.Decimal.Magnitude
import GrowthEstimate.Report
import GrowthEstimate.Text.Lines

/-!
# Reports as a web page

A page of its own: header, summary cards, warnings, the distribution of the classes and a table
with one row per function.  Every inserted text is escaped, so none of its characters can open or
close markup or an attribute.

* `not_delimiter_of_mem_escape`: an escaped text holds none of the four characters that delimit
  markup.
-/

namespace GrowthEstimate.Export.Html

/-- A character as it stands in the page when it comes from an inserted text. -/
def escapeChar (c : Char) : Text :=
  if c == '&' then "&amp;".toList
  else if c == '<' then "&lt;".toList
  else if c == '>' then "&gt;".toList
  else if c == '"' then "&#34;".toList
  else if c == '\'' then "&#39;".toList
  else [c]

def escape (s : Text) : Text := s.flatMap escapeChar

/-! ## Parts of the page -/

def opening : List Text :=
  [ "<!DOCTYPE html>",
    "<html lang=\"en\">",
    "<head>",
    "<meta charset=\"UTF-8\">",
    "<meta name=\"viewport\" content=\"width=device-width, initial-scale=1.0\">",
    "<title>Algorithm Complexity Analysis Report</title>",
    "<style>",
    "    body \x7b font-family: -apple-system, BlinkMacSystemFont, 'Segoe UI', Roboto, sans-serif;",
    "           max-width: 1200px; margin: 0 auto; padding: 20px; line-height: 1.6; color: #333; \x7d",
    "    .header \x7b border-bottom: 2px solid #e1e4e8; padding-bottom: 20px; margin-bottom: 30px; \x7d",
    "    .meta \x7b margin-top: 10px; color: #586069; font-size: 14px; \x7d",
    "    .summary-grid \x7b display: grid; grid-template-columns: repeat(auto-fit, minmax(250px, 1fr));",
    "                    gap: 20px; margin-bottom: 30px; \x7d",
    "    .summary-card \x7b background: #f6f8fa; border: 1px solid #e1e4e8; border-radius: 8px;",
    "                    padding: 20px; text-align: center; \x7d",
    "    .summary-card .value \x7b font-size: 24px; font-weight: bold; margin: 10px 0; \x7d",
    "    .complexity-badge \x7b display: inline-block; padding: 6px 12px; border-radius: 16px;",
    "                        color: white; font-weight: bold; font-size: 14px; \x7d",
    "    .section \x7b border: 1px solid #e1e4e8; border-radius: 8px; padding: 20px; margin-bottom: 30px; \x7d",
    "    .warnings \x7b background: #fff3cd; border-color: #ffeaa7; color: #856404; \x7d",
    "    table \x7b width: 100%; border-collapse: collapse; \x7d",
    "    th, td \x7b padding: 12px; text-align: left; border-bottom: 1px solid #e1e4e8; \x7d",
    "    th \x7b background: #f6f8fa; font-weight: 600; \x7d",
    "</style>",
    "</head>",
    "<body>" ].map String.toList

def badge (g : Growth) : Text :=
  "<span class=\"complexity-badge\" style=\"background-color: ".toList ++ escape g.color
    ++ "\">".toList ++ escape g.symbol ++ "</span>".toList

/-- `inner` between a tag that opens and one that closes. -/
def within (openingTag : String) (inner : Text) (closingTag : String) : Text :=
  openingTag.toList ++ inner ++ closingTag.toList

def cell (inner : Text) : Text := within "<td>" inner "</td>"

def row (cells : List Text) : Text := within "<tr>" cells.flatten "</tr>"

/-- The file name in the header; an empty one is not shown. -/
def fileNote (fileName : Option Text) : Text :=
  match fileName.filter (!·.isEmpty) with
  | some name => " | File: ".toList ++ escape name
  | none => []

def header (r : Report) (fileName : Option Text) : List Text :=
  [ "<div class=\"header\">".toList,
    "<h1>Algorithm Complexity Analysis Report</h1>".toList,
    within "<div class=\"meta\">Language: " (escape r.language ++ fileNote fileName) "</div>",
    "</div>".toList ]

def cardValue (inner : Text) : Text := within "<div class=\"value\">" inner "</div>"

def summary (r : Report) : List Text :=
  [ "<div class=\"summary-grid\">".toList,
    "<div class=\"summary-card\"><h3>Overall Complexity</h3>".toList,
    cardValue (badge r.overall),
    within "<div>" (escape r.overall.description) "</div></div>",
    "<div class=\"summary-card\"><h3>Functions Analyzed</h3>".toList,
    cardValue (Decimal.ofNat r.functions.length) ++ "</div>".toList,
    "<div class=\"summary-card\"><h3>Average Confidence</h3>".toList,
    cardValue (escape (Decimal.percentage r.averageConfidence)) ++ "</div>".toList,
    "</div>".toList ]

def warnings (r : Report) : List Text :=
  if r.warnings.isEmpty then []
  else
    ["<div class=\"section warnings\"><h3>Warnings</h3>".toList, "<ul>".toList]
      ++ r.warnings.map (fun w => within "<li>" (escape w) "</li>")
      ++ ["</ul>".toList, "</div>".toList]

def tableSection (title columns : String) (rows : List Text) : List Text :=
  [ within "<div class=\"section\"><h3>" title.toList "</h3>", "<table>".toList,
    within "<thead><tr>" columns.toList "</tr></thead>", "<tbody>".toList ]
    ++ rows ++ ["</tbody>".toList, "</table>".toList, "</div>".toList]

def distributionRow (total : Nat) (g : Growth) (count : Nat) : Text :=
  let share := Float.ofNat count / Float.ofNat total
  row [cell (badge g), cell (Decimal.ofNat count), cell (escape (Decimal.percentage share))]

def functionRow (f : FunctionReport) : Text :=
  row
    [ cell (within "<code>" (escape f.name) "</code>"), cell (badge f.growth),
      cell (escape (Decimal.percentage f.confidence)),
      cell (Decimal.ofInt f.first ++ '-' :: Decimal.ofInt f.last),
      cell (escape ("; ".toList.intercalate f.rationale)) ]

def details (r : Report) : List Text :=
  if r.functions.isEmpty then
    ["<div class=\"section\"><h3>No functions found for analysis</h3></div>".toList]
  else
    tableSection "Complexity Distribution"
        "<th>Complexity</th><th>Count</th><th>Percentage</th>"
        (r.distribution.map fun (g, count) => distributionRow r.functions.length g count)
      ++ tableSection "Function Analysis Details"
        "<th>Function</th><th>Complexity</th><th>Confidence</th><th>Lines</th><th>Details</th>"
        (r.functions.map functionRow)

def closing : List Text := ["</body>".toList, "</html>".toList]

def render (r : Report) (fileName : Option Text) : Text :=
  Text.joinLines
    (opening ++ header r fileName ++ summary r ++ warnings r ++ details r ++ closing)

/-! ## Laws of escaping -/

/-- The characters that delimit markup and the values of attributes. -/
def isDelimiter (c : Char) : Bool := c == '<' || c == '>' || c == '"' || c == '\''

private theorem not_delimiter_of_all {s : Text} (h : s.all (!isDelimiter ·) = true) {c : Char}
    (hc : c ∈ s) : isDelimiter c = false := by
  simpa using List.all_eq_true.1 h c hc

private theorem not_delimiter_of_mem_escapeChar {c d : Char} (h : c ∈ escapeChar d) :
    isDelimiter c = false := by
  rw [escapeChar] at h
  split at h
  · exact not_delimiter_of_all rfl h
  split at h
  · exact not_delimiter_of_all rfl h
  split at h
  · exact not_delimiter_of_all rfl h
  split at h
  · exact not_delimiter_of_all rfl h
  split at h
  · exact not_delimiter_of_all rfl h
  · simp_all [isDelimiter]

theorem not_delimiter_of_mem_escape {s : Text} {c : Char} (h : c ∈ escape s) :
    isDelimiter c = false := by
  obtain ⟨d, _, hd⟩ := List.mem_flatMap.1 h
  exact not_delimiter_of_mem_escapeChar hd

end GrowthEstimate.Export.Html
