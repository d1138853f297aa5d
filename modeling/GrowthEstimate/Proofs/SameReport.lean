import GrowthEstimate.Proofs.ReportExport
import GrowthEstimate.Proofs.Statuses

/-!
# One report for both routes

A request is run once for its answer, and neither the route nor the query has a part in that run.
So a body that is answered with a report by one route is answered with the same report by the
other, as it is or as a text in any of the formats, unless that would show a half.

* `exists_run_of_status`: a call is answered with a report when the run of its request has one;
* `respond_of_run`: what the two routes make of that report;
* `sameIgnoringCase_resolveTag`: a resolved tag no longer leaves the language open;
* `respond_same_report`: both routes on one body.
-/

namespace GrowthEstimate.Service

open Text (sameIgnoringCase)

/-! ## Languages -/

/-- Neither the tag of a language nor the generic one leaves the language open. -/
theorem sameIgnoringCase_resolveTag (tag fileName : Text) :
    sameIgnoringCase (resolveTag tag fileName) autoTag = false := by
  cases htag : sameIgnoringCase tag autoTag with
  | false => rwa [resolveTag_of_explicit htag]
  | true =>
    rw [resolveTag, if_pos htag]
    cases FileName.language? fileName with
    | none => decide +kernel
    | some l => cases l <;> decide +kernel

theorem resolveTag_resolveTag (tag fileName other : Text) :
    resolveTag (resolveTag tag fileName) other = resolveTag tag fileName :=
  resolveTag_of_explicit (sameIgnoringCase_resolveTag tag fileName) other

theorem language_analyzeText (source tag : Text) : (analyzeText source tag).language = tag := by
  by_cases hlong : softLimit < source.length
  · rw [analyzeText_of_long hlong]
  · rw [analyzeText_of_short (Nat.not_lt.1 hlong)]
    rfl

/-! ## Runs -/

theorem averageConfidence_eq (report : Report) :
    report.averageConfidence =
      if report.functions.isEmpty then 0
      else (report.functions.map (·.confidence)).foldl (· + ·) 0
        / Float.ofNat report.functions.length := by
  rw [Report.averageConfidence, List.foldl_map]

section

variable {limits : Json.Limits} {limit : Int} {now : Text} {call : Call} {r : AnalyzeRequest}
  {report : Report}

theorem analyze_of_runAnalysis (h : runAnalysis limit r = .ok report) :
    GrowthEstimate.analyze r.source r.language = .ok report := by
  rw [runAnalysis] at h
  cases hvalid : validate limit r.source with
  | error reason =>
    rw [hvalid] at h
    cases h
  | ok =>
    rw [hvalid] at h
    exact h

/-- The run of the request is the only way to an answer with a report. -/
theorem exists_run_of_status {route : Route} (hcall : call.Reaches route)
    (hpost : route = .analyze ∨ route = .exported)
    (hstatus : (respond limits limit now call).status = 200) :
    ∃ r report format, call.body.AsksFor limits r ∧ call.format? route = some format
      ∧ runAnalysis limit r = .ok report ∧ r.showsHalf report format = false := by
  cases respond_answered hcall hpost limits limit now with
  | served hbody hformat hrun hwhole => exact ⟨_, _, _, hbody, hformat, hrun, hwhole⟩
  | unreadable _ hanswer | unfit _ _ hanswer | rejected _ _ _ hanswer | halved _ _ _ _ hanswer =>
    rw [hanswer] at hstatus
    cases hstatus

/-- A run with a report is answered with it, unless the answer would show a half. -/
theorem respond_of_run {route : Route} {format : Export.Format} (hcall : call.Reaches route)
    (hpost : route = .analyze ∨ route = .exported) (hformat : call.format? route = some format)
    (hbody : call.body.AsksFor limits r) (hrun : runAnalysis limit r = .ok report) :
    r.Echoes report r.code.standIn format.name
        ∧ respond limits limit now call = .failed 500 "Internal server error".toList
      ∨ ¬ r.Echoes report r.code.standIn format.name
        ∧ respond limits limit now call = route.content format r report := by
  have hanswer := (respond_answered hcall hpost limits limit now).of_ok hbody hformat hrun
  rw [← showsHalf_eq_true_iff]
  split at hanswer
  · next hshown => exact .inl ⟨hshown, hanswer⟩
  · next hwhole => exact .inr ⟨hwhole, hanswer⟩

end

/-! ## Both routes -/

theorem isPlain_toJson_analyzeText (source tag : Text) :
    Json.IsPlain (analyzeText source tag).toJson := by
  have hfinite : ∀ c ∈ [(0.9 : Float), 0.85, 0.8, 0.7, 0.6], c.isFinite = true := by
    decide +kernel
  exact Report.isPlain_toJson fun f hf => hfinite _ (confidence_mem_of_analyzeText hf)

/-- A call that is answered with a report: the text of its request, analysed in the language that
the request comes to.  Every call with the same body is answered with that report, or with its text
in the format that the query asks for, unless that answer would show a half of the request. -/
theorem respond_same_report (limits : Json.Limits) (limit : Int) (now : Text) (call : Call)
    (route : Route) (hcall : call.Reaches route) (hpost : route = .analyze ∨ route = .exported)
    (hstatus : (respond limits limit now call).status = 200) :
    ∃ r report mark, call.body.AsksFor limits r
      ∧ .char mark ∉ r.code ∧ Text.IsNeutral mark
      ∧ GrowthEstimate.analyze (r.code.withHalves mark)
          (resolveTag (replaced r.tag) (replaced r.fileName)) = .ok report
      ∧ report.language =
        (if sameIgnoringCase (replaced r.tag) "auto".toList then
          ((FileName.language? (replaced r.fileName)).map Language.tag).getD "generic".toList
        else replaced r.tag)
      ∧ sameIgnoringCase report.language "auto".toList = false
      ∧ (∀ fileName, resolveTag report.language fileName = report.language)
      ∧ ¬ r.Echoes report mark (call.formatName route)
      ∧ (∀ code tag fileName, r = ⟨.ofText code, .ofText tag, .ofText fileName⟩ →
          GrowthEstimate.analyze code (resolveTag tag fileName) = .ok report
            ∧ ∀ format, ¬ r.Echoes report mark format)
      ∧ (∀ format, ¬ r.Echoes report mark format →
          (format ≠ "csv".toList → .ofText (replaced r.tag) = r.tag)
            ∧ (format = "markdown".toList ∨ format = "html".toList →
                .ofText (replaced r.fileName) = r.fileName))
      ∧ (∀ now' call', call'.Reaches .analyze → call'.body = call.body →
          r.Echoes report mark "json".toList
              ∧ respond limits limit now' call' = .failed 500 "Internal server error".toList
            ∨ ¬ r.Echoes report mark "json".toList
              ∧ respond limits limit now' call' = .ofJson 200 (.ofMembers
                [ ("success", .bool true), ("result", report.toJson),
                  ("summary", .ofMembers
                    [ ("notation", .text report.overall.symbol),
                      ("description", .text report.overall.description),
                      ("rating", .text report.overall.rating),
                      ("functionCount", .int report.functions.length),
                      ("averageConfidence", .float
                        (if report.functions.isEmpty then 0
                        else (report.functions.map (·.confidence)).foldl (· + ·) 0
                          / Float.ofNat report.functions.length)) ]) ]))
      ∧ (∀ now' call' format, call'.Reaches .exported →
          call'.formatName .exported = format.name → call'.body = call.body →
          r.Echoes report mark format.name
              ∧ respond limits limit now' call' = .failed 500 "Internal server error".toList
            ∨ ¬ r.Echoes report mark format.name
              ∧ respond limits limit now' call' =
                ⟨200, contentTypeOf format.mediaType,
                  .text (Export.render format report
                    (if r.fileName = .ofText "untitled".toList then none
                    else some (replaced r.fileName)))⟩)
      ∧ ∀ fileName, Json.parse? (Export.render .json report fileName) = some report.toJson := by
  obtain ⟨r, report, format, hbody, hformat, hrun, hwhole⟩ :=
    exists_run_of_status hcall hpost hstatus
  have hanalyze := analyze_of_runAnalysis hrun
  obtain ⟨hvalid, hreport⟩ := analyze_eq_ok_iff.1 hanalyze
  have hlanguage : report.language = r.language := by
    rw [hreport, language_analyzeText]
  have hlength : r.code.length ≤ hardLimit := by
    rw [← r.length_source]
    exact Int.ofNat_le.1 (validate_eq_ok_iff.1 hvalid).2
  have hplain : Json.IsPlain report.toJson := by
    rw [hreport]
    exact isPlain_toJson_analyzeText _ _
  have hname := Call.format?_eq_some_iff.1 hformat
  refine ⟨r, report, r.code.standIn, hbody, CodePoints.standIn_notMem hlength,
    CodePoints.isNeutral_standIn hlength, hanalyze, hlanguage, ?_, ?_, ?_, ?_,
    fun _ => AnalyzeRequest.verbatim_of_not_echoes, ?_, ?_, ?_⟩
  · rw [hlanguage]
    exact sameIgnoringCase_resolveTag _ _
  · intro fileName
    rw [hlanguage, AnalyzeRequest.language, resolveTag_resolveTag]
  · rw [hname, ← showsHalf_eq_true_iff, hwhole]
    exact Bool.false_ne_true
  · rintro code tag fileName rfl
    rw [AnalyzeRequest.source_of_text rfl, AnalyzeRequest.language_of_texts rfl rfl] at hanalyze
    exact ⟨hanalyze, fun _ => AnalyzeRequest.not_echoes (CodePoints.hasHalf_ofText _)
      (CodePoints.hasHalf_ofText _) (CodePoints.hasHalf_ofText _)⟩
  · intro now' call' hcall' hsame
    rw [← hsame] at hbody
    rw [← averageConfidence_eq]
    exact respond_of_run hcall' (.inl rfl) rfl hbody hrun
  · intro now' call' format hcall' hname' hsame
    rw [← hsame] at hbody
    exact respond_of_run hcall' (.inr rfl) (Call.format?_eq_some_iff.2 hname') hbody hrun
  · exact fun _ => Json.parse_write _ hplain

/-- A tag in capitals with blanks around it, and a file name that tells the language; first the
report as it is, then as a Markdown text. -/
theorem respond_same_report_auto :
    let limits : Json.Limits := ⟨some 4300, some 900⟩
    let body : Body :=
      ("\x7b\"code\": \"def f(): pass\", \"language\": \" AUTO \", ".toList
        ++ "\"filename\": \"src/a.py\"\x7d".toList).flatMap String.utf8EncodeChar
    let analyze : Call := ⟨"POST".toList, "/analyze".toList, [], body⟩
    let exported : Call :=
      ⟨"POST".toList, "/export".toList, [("format".toList, "markdown".toList)], body⟩
    ∃ report, report.language = "python".toList
      ∧ respond limits 20 [] analyze = .ofJson 200 (analysisJson report)
      ∧ respond limits 20 [] exported = ⟨200, "text/markdown; charset=utf-8".toList,
          .text (Export.Markdown.render report (some "src/a.py".toList))⟩ := by
  intro limits body analyze exported
  let request : AnalyzeRequest :=
    ⟨.ofText "def f(): pass".toList, .ofText "AUTO".toList, .ofText "src/a.py".toList⟩
  have hbody : body.AsksFor limits request := AnalyzeRequest.ofBody_eq_ok_iff.1 (by decide +kernel)
  obtain ⟨r, report, mark, hr, -, -, -, hlanguage, -, -, -, -, -, hanalyze, hexport, -⟩ :=
    respond_same_report limits 20 [] analyze .analyze ⟨rfl, rfl⟩ (.inl rfl) (by decide +kernel)
  obtain rfl := hbody.unique hr
  have hwhole (format : Text) : ¬ request.Echoes report mark format :=
    AnalyzeRequest.not_echoes rfl rfl rfl
  refine ⟨report, hlanguage.trans (by decide +kernel), ?_, ?_⟩
  · rcases hanalyze [] analyze ⟨rfl, rfl⟩ rfl with ⟨hecho, -⟩ | ⟨-, hanswer⟩
    · exact absurd hecho (hwhole _)
    · rw [hanswer, ← averageConfidence_eq]
      rfl
  · rcases hexport [] exported .markdown ⟨rfl, rfl⟩ (by decide +kernel) rfl with
      ⟨hecho, -⟩ | ⟨-, hanswer⟩
    · exact absurd hecho (hwhole _)
    · exact hanswer

end GrowthEstimate.Service
