import GrowthEstimate.Export.Csv
import GrowthEstimate.Export.Html
import GrowthEstimate.Export.Markdown
import GrowthEstimate.Json.Writing

/-!
# Export formats

The four texts that a report can be rendered to, their names and their media types.

* `render_of_hidden_language`, `render_of_hidden_file`: what a format does not show has no part in
  the text.
-/

namespace GrowthEstimate.Export

inductive Format
  | json
  | markdown
  | csv
  | html
  deriving DecidableEq

namespace Format

def all : List Format := [json, markdown, csv, html]

def name : Format → Text
  | json => "json".toList
  | markdown => "markdown".toList
  | csv => "csv".toList
  | html => "html".toList

def mediaType : Format → Text
  | json => "application/json".toList
  | markdown => "text/markdown".toList
  | csv => "text/csv".toList
  | html => "text/html".toList

def showsLanguage : Format → Bool
  | csv => false
  | json | markdown | html => true

def showsFile : Format → Bool
  | json | csv => false
  | markdown | html => true

def ofName (s : Text) : Except UnknownName Format :=
  match all.find? fun f => f.name == s with
  | some f => .ok f
  | none => .error (.format s)

end Format

/-- The report as JSON with the given number of spaces per level, or compactly.  JSON has no word for
a double that is no number, so null stands in its place. -/
def renderJson (indent : Option Nat) (r : Report) : Text :=
  Json.write ⟨indent, false, "null".toList⟩ r.toJson

def jsonIndent : Nat := 2

/-- The report in a format; the file name is shown where the format has a place for it. -/
def render (format : Format) (r : Report) (fileName : Option Text) : Text :=
  match format with
  | .json => renderJson (some jsonIndent) r
  | .markdown => Markdown.render r fileName
  | .csv => Csv.render r
  | .html => Html.render r fileName

theorem render_of_hidden_language {format : Format} (h : format.showsLanguage = false)
    (r : Report) (language : Text) (fileName : Option Text) :
    render format { r with language := language } fileName = render format r fileName := by
  cases format with
  | csv => rfl
  | json | markdown | html => cases h

theorem render_of_hidden_file {format : Format} (h : format.showsFile = false) (r : Report)
    (fileName fileName' : Option Text) : render format r fileName = render format r fileName' := by
  cases format with
  | json | csv => rfl
  | markdown | html => cases h

end GrowthEstimate.Export
