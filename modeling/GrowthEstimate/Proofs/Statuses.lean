import GrowthEstimate.Proofs.ReportReading
import GrowthEstimate.Proofs.Requests
import GrowthEstimate.Proofs.StandIns
import GrowthEstimate.Service.Routes

/-!
# Statuses of answers

The two routes that analyse a text answer alike: to a body that cannot be read, to one that does not
fit, to a text that is rejected, to a request of which a half would be shown, and with a report.
Each comes before the next.  The limit of the service is never above that of the analysis, so the
service alone rejects a text.

* `Call.format?_eq_none_iff`: exactly which calls ask for a format that there is not;
* `runAnalysis_eq`: what a request comes to, by the length of its text;
* `showsHalf_eq_true_iff`: a half is shown in a name, in the language or in the file name;
* `respond_answered`: the five kinds of answers;
* `respond_zero_and_half`: a body that is no request is not always answered as one that does not
  fit, nor a request within the limit with its report;
* `respond_status`: the status of every call of the two routes.
-/

namespace GrowthEstimate.Service

open Export (Format)

/-! ## Formats -/

theorem ofName_toOption (name : Text) :
    (Format.ofName name).toOption = Format.all.find? fun f => f.name == name := by
  rw [Format.ofName]
  cases Format.all.find? fun f => f.name == name <;> rfl

/-- The format in which the answer to a call shows a report; none when there is no such format. -/
def Call.format? (call : Call) : Route → Option Format
  | .exported => formatOf? call.query
  | _ => some .json

/-- The name of that format. -/
def Call.formatName (call : Call) (route : Route) : Text :=
  if route = .exported then (call.query.reverse.lookup "format".toList).getD "json".toList
  else "json".toList

theorem Call.format?_eq_some_iff {call : Call} {route : Route} {format : Format} :
    call.format? route = some format ↔ call.formatName route = format.name := by
  have hname (name : Text) :
      (Format.ofName name).toOption = some format ↔ name = format.name := by
    rw [ofName_toOption]
    constructor
    · intro h
      have hfound := List.find?_some h
      exact (eq_of_beq hfound).symm
    · rintro rfl
      cases format <;> decide +kernel
  have hjson : some Format.json = some format ↔ "json".toList = format.name := by
    cases format <;> decide +kernel
  cases route with
  | exported =>
    rw [format?, formatName, if_pos rfl, formatOf?]
    cases call.query.reverse.lookup "format".toList with
    | none => exact hjson
    | some name => exact hname name
  | _ => exact hjson

theorem Call.format?_eq_none_iff {call : Call} {route : Route} :
    call.format? route = none ↔ call.formatName route ∉ Format.all.map (·.name) := by
  rw [← not_iff_not, not_not, ← ne_eq, Option.ne_none_iff_exists', List.mem_map]
  constructor
  · rintro ⟨format, h⟩
    exact ⟨format, by cases format <;> decide, (format?_eq_some_iff.1 h).symm⟩
  · rintro ⟨format, -, h⟩
    exact ⟨format, format?_eq_some_iff.2 h.symm⟩

/-! ## Texts -/

theorem AnalyzeRequest.length_source (r : AnalyzeRequest) : r.source.length = r.code.length :=
  CodePoints.length_withHalves _ _

theorem AnalyzeRequest.source_eq_nil_iff {r : AnalyzeRequest} : r.source = [] ↔ r.code = [] := by
  rw [← List.length_eq_zero_iff, length_source, List.length_eq_zero_iff]

/-- Under a limit that the settings allow, the analysis rejects nothing that the service does
not. -/
theorem runAnalysis_eq {limit : Int} (h : limit ≤ hardLimit) (r : AnalyzeRequest) :
    runAnalysis limit r =
      if r.code = [] then .error .empty
      else if limit < r.code.length then .error (.tooLong r.code.length limit)
      else .ok (analyzeText r.source r.language) := by
  rw [runAnalysis, validate_eq, ← r.length_source]
  by_cases hempty : r.code = []
  · rw [if_pos (AnalyzeRequest.source_eq_nil_iff.2 hempty), if_pos hempty]
  · have hne : r.source ≠ [] := mt AnalyzeRequest.source_eq_nil_iff.1 hempty
    rw [if_neg hne, if_neg hempty]
    by_cases hlong : limit < r.source.length
    · rw [if_pos hlong, if_pos hlong]
    · rw [if_neg hlong, if_neg hlong]
      exact analyze_of_length hne (by omega) _

/-! ## Halves -/

/-- A half of the request stands in what an answer in the format shows of the report, in whose names
`mark` stands for the halves of the source. -/
inductive AnalyzeRequest.Echoes (r : AnalyzeRequest) (report : Report) (mark : Char)
    (format : Text) : Prop
  | name {f : FunctionReport} (half : r.code.hasHalf = true) (mem : f ∈ report.functions)
    (shown : mark ∈ f.name)
  | language (half : r.tag.hasHalf = true) (shown : format ≠ "csv".toList)
  | fileName (half : r.fileName.hasHalf = true)
    (shown : format = "markdown".toList ∨ format = "html".toList)

section

variable {r : AnalyzeRequest} {report : Report} {mark : Char} {format : Text}

/-- Of a request without halves none can be shown. -/
theorem AnalyzeRequest.not_echoes (hcode : r.code.hasHalf = false) (htag : r.tag.hasHalf = false)
    (hfile : r.fileName.hasHalf = false) : ¬ r.Echoes report mark format := by
  intro h
  cases h with
  | name hhalf => exact absurd hhalf (by simp [hcode])
  | language hhalf => exact absurd hhalf (by simp [htag])
  | fileName hhalf => exact absurd hhalf (by simp [hfile])

/-- What is shown without halves is shown as it is in the request. -/
theorem AnalyzeRequest.verbatim_of_not_echoes (h : ¬ r.Echoes report mark format) :
    (format ≠ "csv".toList → .ofText (replaced r.tag) = r.tag)
      ∧ (format = "markdown".toList ∨ format = "html".toList →
          .ofText (replaced r.fileName) = r.fileName) := by
  constructor
  · intro hshown
    exact CodePoints.ofText_withHalves (Bool.eq_false_iff.2 fun hhalf => h (.language hhalf hshown)) _
  · intro hshown
    exact CodePoints.ofText_withHalves (Bool.eq_false_iff.2 fun hhalf => h (.fileName hhalf hshown)) _

end

theorem namesHalf_eq_true_iff {r : AnalyzeRequest} {report : Report} :
    r.namesHalf report = true ↔
      r.code.hasHalf = true ∧ ∃ f ∈ report.functions, r.code.standIn ∈ f.name := by
  simp [AnalyzeRequest.namesHalf]

theorem showsHalf_eq_true_iff {r : AnalyzeRequest} {report : Report} {format : Format} :
    r.showsHalf report format = true ↔ r.Echoes report r.code.standIn format.name := by
  have hlanguage : format.showsLanguage = true ↔ format.name ≠ "csv".toList := by
    cases format <;> decide
  have hfile : format.showsFile = true ↔
      format.name = "markdown".toList ∨ format.name = "html".toList := by
    cases format <;> decide
  simp only [AnalyzeRequest.showsHalf, Bool.or_eq_true, Bool.and_eq_true, namesHalf_eq_true_iff,
    hlanguage, hfile]
  constructor
  · rintro ((⟨hhalf, f, hf, hmark⟩ | ⟨hshown, hhalf⟩) | ⟨hshown, hhalf⟩)
    · exact .name hhalf hf hmark
    · exact .language hhalf hshown
    · exact .fileName hhalf hshown
  · intro h
    cases h with
    | name hhalf hf hmark => exact .inl (.inl ⟨hhalf, _, hf, hmark⟩)
    | language hhalf hshown => exact .inl (.inr ⟨hshown, hhalf⟩)
    | fileName hhalf hshown => exact .inr ⟨hshown, hhalf⟩

/-! ## Answers -/

/-- What a route makes of a report. -/
def Route.content (route : Route) (format : Format) (r : AnalyzeRequest) (report : Report) :
    Response :=
  match route with
  | exported =>
    ⟨200, contentTypeOf format.mediaType, .text (Export.render format report r.shownFile?)⟩
  | _ => .ofJson 200 (analysisJson report)

theorem Route.status_content (route : Route) (format : Format) (r : AnalyzeRequest)
    (report : Report) : (route.content format r report).status = 200 := by
  cases route <;> rfl

/-- The answers of the two routes; each of them is given when none before it is. -/
inductive Answered (limits : Json.Limits) (limit : Int) (call : Call) (route : Route)
    (response : Response) : Prop
  | unreadable (body : call.body.Unreadable limits)
    (answer : response = .detail 400 "There was an error parsing the body")
  | unfit (body : ¬ call.body.Unreadable limits)
    (fault : (∀ r, ¬ call.body.AsksFor limits r) ∨ call.format? route = none)
    (answer : response = .invalidRequest)
  | rejected {r : AnalyzeRequest} {format : Format} {reason : Rejection}
    (body : call.body.AsksFor limits r) (known : call.format? route = some format)
    (run : runAnalysis limit r = .error reason) (answer : response = .rejected reason)
  | halved {r : AnalyzeRequest} {format : Format} {report : Report}
    (body : call.body.AsksFor limits r) (known : call.format? route = some format)
    (run : runAnalysis limit r = .ok report) (shown : r.showsHalf report format = true)
    (answer : response = .internalError)
  | served {r : AnalyzeRequest} {format : Format} {report : Report}
    (body : call.body.AsksFor limits r) (known : call.format? route = some format)
    (run : runAnalysis limit r = .ok report) (whole : r.showsHalf report format = false)
    (answer : response = route.content format r report)

section

variable {limits : Json.Limits} {limit : Int} {call : Call} {route : Route} {response : Response}

theorem Answered.of_fault {fault : BodyFault}
    (h : AnalyzeRequest.ofBody limits call.body = .error fault) :
    Answered limits limit call route (.ofBodyFault fault) := by
  cases fault with
  | unfit =>
    refine .unfit ?_ (.inl ?_) rfl
    · rw [← AnalyzeRequest.ofBody_eq_unreadable_iff, h]
      simp
    · intro r
      rw [← AnalyzeRequest.ofBody_eq_ok_iff, h]
      simp
  | unreadable => exact .unreadable (AnalyzeRequest.ofBody_eq_unreadable_iff.1 h) rfl

theorem Body.AsksFor.not_unreadable {body : Body} {r : AnalyzeRequest}
    (h : body.AsksFor limits r) : ¬ body.Unreadable limits := by
  obtain ⟨j, hread, -⟩ := h
  rw [← Body.read_eq_unreadable_iff, hread]
  simp

theorem Body.AsksFor.unique {body : Body} {r r' : AnalyzeRequest} (h : body.AsksFor limits r)
    (h' : body.AsksFor limits r') : r' = r := by
  rw [← AnalyzeRequest.ofBody_eq_ok_iff] at h h'
  exact Except.ok.inj (h'.symm.trans h)

theorem answered_analysis (limits : Json.Limits) (limit : Int) (call : Call) :
    Answered limits limit call .analyze (respondAnalysis limits limit call.body) := by
  rw [respondAnalysis]
  cases hbody : AnalyzeRequest.ofBody limits call.body with
  | error fault => exact .of_fault hbody
  | ok r =>
    have hasks := AnalyzeRequest.ofBody_eq_ok_iff.1 hbody
    dsimp only
    cases hrun : runAnalysis limit r with
    | error reason => exact .rejected hasks rfl hrun rfl
    | ok report =>
      dsimp only
      cases hshown : r.showsHalf report .json with
      | true => exact .halved hasks rfl hrun hshown rfl
      | false => exact .served hasks rfl hrun hshown rfl

theorem answered_export (limits : Json.Limits) (limit : Int) (call : Call) :
    Answered limits limit call .exported (respondExport limits limit call.query call.body) := by
  rw [respondExport]
  cases hbody : AnalyzeRequest.ofBody limits call.body with
  | error fault => exact .of_fault hbody
  | ok r =>
    have hasks := AnalyzeRequest.ofBody_eq_ok_iff.1 hbody
    cases hquery : formatOf? call.query with
    | none => exact .unfit hasks.not_unreadable (.inr hquery) rfl
    | some format =>
      dsimp only
      cases hrun : runAnalysis limit r with
      | error reason => exact .rejected hasks hquery hrun rfl
      | ok report =>
        dsimp only
        cases hshown : r.showsHalf report format with
        | true => exact .halved hasks hquery hrun hshown rfl
        | false => exact .served hasks hquery hrun hshown rfl

/-- A call by the path and the method of a route. -/
structure Call.Reaches (call : Call) (route : Route) : Prop where
  path : call.path = route.path
  method : call.method = route.method

theorem respond_answered (hcall : call.Reaches route)
    (hpost : route = .analyze ∨ route = .exported) (limits : Json.Limits) (limit : Int)
    (now : Text) : Answered limits limit call route (respond limits limit now call) := by
  rw [respond_of_path hcall.path hcall.method]
  rcases hpost with rfl | rfl
  · exact answered_analysis limits limit call
  · exact answered_export limits limit call

theorem Answered.of_unreadable (h : Answered limits limit call route response)
    (hunread : call.body.Unreadable limits) :
    response = .detail 400 "There was an error parsing the body" := by
  cases h with
  | unreadable _ hanswer => exact hanswer
  | unfit hread => exact absurd hunread hread
  | rejected hbody | halved hbody | served hbody => exact absurd hunread hbody.not_unreadable

theorem Body.AsksFor.not_fault {r : AnalyzeRequest} {format : Format}
    (h : call.body.AsksFor limits r) (hformat : call.format? route = some format) :
    ¬ ((∀ r, ¬ call.body.AsksFor limits r) ∨ call.format? route = none) := by
  rintro (hnone | hnone)
  · exact hnone r h
  · rw [hformat] at hnone
    cases hnone

theorem Answered.status_eq_422_iff (h : Answered limits limit call route response)
    (hread : ¬ call.body.Unreadable limits) :
    response.status = 422 ↔
      (∀ r, ¬ call.body.AsksFor limits r) ∨ call.format? route = none := by
  cases h with
  | unreadable hunread => exact absurd hunread hread
  | unfit _ hfault hanswer => exact iff_of_true (congrArg Response.status hanswer) hfault
  | rejected hbody hformat _ hanswer =>
    have hstatus : response.status = 400 := congrArg Response.status hanswer
    exact iff_of_false (by omega) (hbody.not_fault hformat)
  | halved hbody hformat _ _ hanswer =>
    have hstatus : response.status = 500 := congrArg Response.status hanswer
    exact iff_of_false (by omega) (hbody.not_fault hformat)
  | served hbody hformat _ _ hanswer =>
    have hstatus := (congrArg Response.status hanswer).trans (Route.status_content ..)
    exact iff_of_false (by omega) (hbody.not_fault hformat)

theorem Answered.eq_invalidRequest (h : Answered limits limit call route response)
    (hstatus : response.status = 422) : response = .invalidRequest := by
  cases h with
  | unfit _ _ hanswer => exact hanswer
  | unreadable _ hanswer | rejected _ _ _ hanswer =>
    have hbad : response.status = 400 := congrArg Response.status hanswer
    omega
  | halved _ _ _ _ hanswer =>
    have hbad : response.status = 500 := congrArg Response.status hanswer
    omega
  | served _ _ _ _ hanswer =>
    have hok := (congrArg Response.status hanswer).trans (Route.status_content ..)
    omega

theorem Answered.status_mem (h : Answered limits limit call route response) :
    response.status ∈ [200, 400, 422, 500] := by
  cases h with
  | unreadable _ hanswer | unfit _ _ hanswer | rejected _ _ _ hanswer | halved _ _ _ _ hanswer =>
    have hstatus := congrArg Response.status hanswer
    rw [hstatus]
    simp [Response.detail, Response.ofJson, Response.invalidRequest, Response.failed,
      Response.rejected, Response.internalError]
  | served _ _ _ _ hanswer =>
    rw [hanswer, Route.status_content]
    exact List.mem_cons_self

theorem Answered.of_error {r : AnalyzeRequest} {format : Format} {reason : Rejection}
    (h : Answered limits limit call route response) (hbody : call.body.AsksFor limits r)
    (hformat : call.format? route = some format) (hrun : runAnalysis limit r = .error reason) :
    response = .rejected reason := by
  cases h with
  | unreadable hunread => exact absurd hunread hbody.not_unreadable
  | unfit _ hfault => exact absurd hfault (hbody.not_fault hformat)
  | rejected hbody' _ hrun' hanswer =>
    obtain rfl := hbody.unique hbody'
    obtain rfl : _ = reason := Except.error.inj (hrun'.symm.trans hrun)
    exact hanswer
  | halved hbody' _ hrun' | served hbody' _ hrun' =>
    obtain rfl := hbody.unique hbody'
    cases hrun'.symm.trans hrun

theorem Answered.of_ok {r : AnalyzeRequest} {format : Format} {report : Report}
    (h : Answered limits limit call route response) (hbody : call.body.AsksFor limits r)
    (hformat : call.format? route = some format) (hrun : runAnalysis limit r = .ok report) :
    response =
      if r.showsHalf report format then .internalError else route.content format r report := by
  cases h with
  | unreadable hunread => exact absurd hunread hbody.not_unreadable
  | unfit _ hfault => exact absurd hfault (hbody.not_fault hformat)
  | rejected hbody' _ hrun' =>
    obtain rfl := hbody.unique hbody'
    cases hrun'.symm.trans hrun
  | halved hbody' hformat' hrun' hshown hanswer =>
    obtain rfl := hbody.unique hbody'
    obtain rfl : _ = report := Except.ok.inj (hrun'.symm.trans hrun)
    obtain rfl : _ = format := Option.some.inj (hformat'.symm.trans hformat)
    rw [hanswer, if_pos hshown]
  | served hbody' hformat' hrun' hwhole hanswer =>
    obtain rfl := hbody.unique hbody'
    obtain rfl : _ = report := Except.ok.inj (hrun'.symm.trans hrun)
    obtain rfl : _ = format := Option.some.inj (hformat'.symm.trans hformat)
    rw [hanswer, if_neg (by simp [hwhole])]

end

/-! ## Answers by the length of the text -/

section

variable {limits : Json.Limits} {limit : Int} {call : Call} {route : Route} {response : Response}
  {r : AnalyzeRequest} {format : Format}

theorem Answered.eq_of_empty (h : Answered limits limit call route response)
    (hbody : call.body.AsksFor limits r) (hformat : call.format? route = some format)
    (hlimit : limit ≤ hardLimit) (hempty : r.code = []) : response = .rejected .empty :=
  h.of_error hbody hformat ((runAnalysis_eq hlimit r).trans (if_pos hempty))

theorem Answered.eq_of_long (h : Answered limits limit call route response)
    (hbody : call.body.AsksFor limits r) (hformat : call.format? route = some format)
    (hlimit : limit ≤ hardLimit) (hne : r.code ≠ []) (hlong : limit < r.code.length) :
    response = .rejected (.tooLong r.code.length limit) := by
  refine h.of_error hbody hformat ?_
  rw [runAnalysis_eq hlimit, if_neg hne, if_pos hlong]

theorem Answered.eq_of_short (h : Answered limits limit call route response)
    (hbody : call.body.AsksFor limits r) (hformat : call.format? route = some format)
    (hlimit : limit ≤ hardLimit) (hne : r.code ≠ []) (hshort : r.code.length ≤ limit) :
    response =
      if r.showsHalf (analyzeText r.source r.language) format then .internalError
      else route.content format r (analyzeText r.source r.language) := by
  refine h.of_ok hbody hformat ?_
  rw [runAnalysis_eq hlimit, if_neg hne, if_neg (Int.not_lt.2 hshort)]

theorem Answered.status_eq_400_iff (h : Answered limits limit call route response)
    (hbody : call.body.AsksFor limits r) (hformat : call.format? route = some format)
    (hlimit : limit ≤ hardLimit) :
    response.status = 400 ↔ r.code = [] ∨ limit < r.code.length := by
  by_cases hempty : r.code = []
  · rw [h.eq_of_empty hbody hformat hlimit hempty]
    exact iff_of_true rfl (.inl hempty)
  by_cases hlong : limit < r.code.length
  · rw [h.eq_of_long hbody hformat hlimit hempty hlong]
    exact iff_of_true rfl (.inr hlong)
  · rw [h.eq_of_short hbody hformat hlimit hempty (Int.not_lt.1 hlong)]
    refine iff_of_false ?_ (not_or.2 ⟨hempty, hlong⟩)
    split
    · exact (by decide : ¬ 500 = 400)
    · rw [Route.status_content]
      decide

/-- A text within the limit is answered with its report unless a half would be shown. -/
theorem Answered.status_of_short (h : Answered limits limit call route response)
    (hbody : call.body.AsksFor limits r) (hformat : call.format? route = some format)
    (hlimit : limit ≤ hardLimit) (hne : r.code ≠ []) (hshort : r.code.length ≤ limit) :
    let report := analyzeText r.source r.language
    (response.status = 500 ↔ r.Echoes report r.code.standIn format.name)
      ∧ (response.status = 500 → response = .internalError)
      ∧ (response.status = 200 ↔ ¬ r.Echoes report r.code.standIn format.name)
      ∧ (response.status = 200 → response = route.content format r report) := by
  intro report
  have hanswer := h.eq_of_short hbody hformat hlimit hne hshort
  rw [← showsHalf_eq_true_iff]
  by_cases hshown : r.showsHalf report format = true
  · rw [if_pos hshown] at hanswer
    have hstatus : response.status = 500 := congrArg Response.status hanswer
    refine ⟨iff_of_true hstatus hshown, fun _ => hanswer,
      iff_of_false (by omega) (not_not.2 hshown), fun hok => ?_⟩
    omega
  · rw [if_neg hshown] at hanswer
    have hstatus : response.status = 200 :=
      (congrArg Response.status hanswer).trans (Route.status_content ..)
    refine ⟨iff_of_false (by omega) hshown, fun hbad => ?_, iff_of_true hstatus hshown,
      fun _ => hanswer⟩
    omega

end

/-! ## Statuses -/

/-- Bytes that begin with a zero are meant in units of 16 bits.  Five of them are none, so a body
that is no request is not always answered as one that does not fit.  And a request within the limit
is not always answered with its report. -/
theorem respond_zero_and_half :
    let call (body : Body) : Call := ⟨"POST".toList, "/analyze".toList, [], body⟩
    let zero : Body := [0x00, 0x61, 0x62, 0x63, 0x64]
    let half : Body :=
      "\x7b\"code\": \"f\", \"language\": \"\\uD800\"\x7d".toList.flatMap String.utf8EncodeChar
    (∀ r, ¬ zero.AsksFor Json.unlimited r)
      ∧ (respond Json.unlimited 500000 [] (call zero)).status ≠ 422
      ∧ (∃ r, half.AsksFor Json.unlimited r ∧ r.code ≠ [] ∧ r.code.length ≤ 500000)
      ∧ (respond Json.unlimited 500000 [] (call half)).status = 500 := by
  intro call zero half
  have hread : zero.read Json.unlimited = .error .unreadable := by rfl
  have hhalf : half.AsksFor Json.unlimited
      ⟨.ofText "f".toList, [.half 0xD800 (by decide)], .ofText "untitled".toList⟩ :=
    AnalyzeRequest.ofBody_eq_ok_iff.1 (by decide +kernel)
  refine ⟨?_, by decide +kernel, ⟨_, hhalf, by decide, by decide⟩, by decide +kernel⟩
  rintro r ⟨j, hj, -⟩
  rw [hread] at hj
  cases hj

/-- The status of a call to analyse a text, for every body and query, and for every limit on the
length of the text and on what is read of the body. -/
theorem respond_status (limits : Json.Limits) (limit : Int) (hpositive : 1 ≤ limit)
    (hlimit : limit ≤ 500000) (now : Text) (call : Call) (route : Route)
    (hroute : route = .analyze ∧ call.path = "/analyze".toList
      ∨ route = .exported ∧ call.path = "/export".toList)
    (hmethod : call.method = "POST".toList) :
    let response := respond limits limit now call
    let format := if route = .exported
      then (call.query.reverse.lookup "format".toList).getD "json".toList else "json".toList
    let unknownFormat := format ∉ ["json", "markdown", "csv", "html"].map String.toList
    (call.body.Unreadable limits → response = .detail 400 "There was an error parsing the body")
      ∧ (¬ call.body.Unreadable limits →
          (response.status = 422 ↔ (∀ r, ¬ call.body.AsksFor limits r) ∨ unknownFormat)
            ∧ (response.status = 422 → response = .failed 422 "Invalid request format".toList))
      ∧ (∀ r, call.body.AsksFor limits r → ¬ unknownFormat →
          (response.status = 400 ↔ r.code = [] ∨ limit < r.code.length)
            ∧ (r.code = [] → response = .failed 400 "Empty code provided".toList)
            ∧ (limit < r.code.length → response = .failed 400
                ("Code too large to analyze (".toList ++ Decimal.ofNat r.code.length
                  ++ " > ".toList ++ Decimal.ofInt limit ++ " chars)".toList))
            ∧ (r.code ≠ [] → r.code.length ≤ limit → ∃ report mark,
                .char mark ∉ r.code ∧ Text.IsNeutral mark
                  ∧ GrowthEstimate.analyze (r.code.withHalves mark)
                    (resolveTag (replaced r.tag) (replaced r.fileName)) = .ok report
                  ∧ Report.read report.toJson = .accepted report
                  ∧ 0 ≤ report.exactAverage ∧ report.exactAverage ≤ 1
                  ∧ (response.status = 500 ↔ r.Echoes report mark format)
                  ∧ (response.status = 500 →
                      response = .failed 500 "Internal server error".toList)
                  ∧ (response.status = 200 ↔ ¬ r.Echoes report mark format)
                  ∧ (response.status = 200 → route = .analyze →
                      response = .ofJson 200 (analysisJson report))))
      ∧ response.status ∈ [200, 400, 422, 500] := by
  intro response format unknownFormat
  have hhard : limit ≤ hardLimit := hlimit
  have hpost : route = .analyze ∨ route = .exported := hroute.imp And.left And.left
  have hcall : call.Reaches route := by
    rcases hroute with ⟨rfl, hpath⟩ | ⟨rfl, hpath⟩
    · exact ⟨hpath, hmethod⟩
    · exact ⟨hpath, hmethod⟩
  have hanswered := respond_answered hcall hpost limits limit now
  have hunknown : unknownFormat ↔ call.format? route = none := Call.format?_eq_none_iff.symm
  rw [hunknown]
  refine ⟨hanswered.of_unreadable,
    fun hread => ⟨hanswered.status_eq_422_iff hread, hanswered.eq_invalidRequest⟩, ?_,
    hanswered.status_mem⟩
  intro r hbody hknown
  obtain ⟨shown, hshown⟩ := Option.ne_none_iff_exists'.1 hknown
  have hname : format = shown.name := Call.format?_eq_some_iff.1 hshown
  rw [hname]
  refine ⟨hanswered.status_eq_400_iff hbody hshown hhard,
    hanswered.eq_of_empty hbody hshown hhard, fun hlong => ?_, fun hne hshort => ?_⟩
  · have hne : r.code ≠ [] := by
      rintro hempty
      rw [hempty, List.length_nil] at hlong
      omega
    exact hanswered.eq_of_long hbody hshown hhard hne hlong
  · have hlength : r.code.length ≤ hardLimit := by omega
    have hanalyze := analyze_of_length (mt AnalyzeRequest.source_eq_nil_iff.1 hne)
      (by rwa [r.length_source]) r.language
    have hread := Report.read_toJson (Report.fits_analyzeText r.source r.language)
    have haverage := Report.exactAverage_bounds r.source r.language
    obtain ⟨hbad, herror, hok, hcontent⟩ :=
      hanswered.status_of_short hbody hshown hhard hne hshort
    refine ⟨_, _, CodePoints.standIn_notMem hlength, CodePoints.isNeutral_standIn hlength,
      hanalyze, hread, haverage.1, haverage.2, hbad, herror, hok, fun hstatus hanalysis => ?_⟩
    have hroute : route.content shown r (analyzeText r.source r.language) =
        .ofJson 200 (analysisJson (analyzeText r.source r.language)) := by
      rw [hanalysis]
      rfl
    exact (hcontent hstatus).trans hroute

/-- An empty text for a format that there is not, a text beyond the limit, one within it, a half in
the language, and bytes that are no string. -/
theorem respond_status_each :
    let limits : Json.Limits := ⟨some 4300, some 900⟩
    let call (path : String) (query : List (Text × Text)) (body : Body) : Call :=
      ⟨"POST".toList, path.toList, query, body⟩
    let body (text : String) : Body := text.toList.flatMap String.utf8EncodeChar
    respond limits 20 [] (call "/export" [("format".toList, "pdf".toList)]
        (body "\x7b\"code\": \"\"\x7d")) =
        .failed 422 "Invalid request format".toList
      ∧ respond limits 20 [] (call "/analyze" []
          (body "\x7b\"code\": \"for x in a: print(x + 1)\"\x7d")) =
        .failed 400 "Code too large to analyze (24 > 20 chars)".toList
      ∧ (∃ report, respond limits 20 [] (call "/analyze" []
          (body "\x7b\"code\": \"def f(): pass\", \"language\": \" py \"\x7d")) =
          .ofJson 200 (analysisJson report) ∧ report.exactAverage ≤ 1)
      ∧ respond limits 20 [] (call "/analyze" []
          (body "\x7b\"code\": \"f\", \"language\": \"\\uD800\"\x7d")) =
        .failed 500 "Internal server error".toList
      ∧ respond limits 20 [] (call "/analyze" [] [0x7B, 0xFF, 0x7D]) =
        .detail 400 "There was an error parsing the body" := by
  intro limits call body
  have hanalyze (body : Body) := respond_status limits 20 (by decide) (by decide) []
    (call "/analyze" [] body) .analyze (.inl ⟨rfl, rfl⟩) rfl
  have hasks {text : String} {r : AnalyzeRequest}
      (h : AnalyzeRequest.ofBody limits (body text) = .ok r) : (body text).AsksFor limits r :=
    AnalyzeRequest.ofBody_eq_ok_iff.1 h
  have hjson : ¬ "json".toList ∉ ["json", "markdown", "csv", "html"].map String.toList := by
    decide
  refine ⟨?_, ?_, ?_, ?_, ?_⟩
  · obtain ⟨-, hunfit, -⟩ := respond_status limits 20 (by decide) (by decide) []
      (call "/export" [("format".toList, "pdf".toList)] (body "\x7b\"code\": \"\"\x7d"))
      .exported (.inr ⟨rfl, rfl⟩) rfl
    have hbody : (body "\x7b\"code\": \"\"\x7d").AsksFor limits
        ⟨[], .ofText "auto".toList, .ofText "untitled".toList⟩ := hasks (by rfl)
    obtain ⟨hstatus, hanswer⟩ := hunfit hbody.not_unreadable
    exact hanswer (hstatus.2 (.inr (by decide +kernel)))
  · obtain ⟨-, -, hserved, -⟩ := hanalyze
      (body "\x7b\"code\": \"for x in a: print(x + 1)\"\x7d")
    obtain ⟨-, -, hlong, -⟩ := hserved _ (hasks
      (r := ⟨.ofText "for x in a: print(x + 1)".toList, .ofText "auto".toList,
        .ofText "untitled".toList⟩) (by rfl)) hjson
    exact hlong (by decide +kernel)
  · obtain ⟨-, -, hserved, -⟩ := hanalyze
      (body "\x7b\"code\": \"def f(): pass\", \"language\": \" py \"\x7d")
    obtain ⟨-, -, -, hreport⟩ := hserved _ (hasks
      (r := ⟨.ofText "def f(): pass".toList, .ofText "py".toList, .ofText "untitled".toList⟩)
      (by rfl)) hjson
    obtain ⟨report, mark, -, -, -, -, -, haverage, -, -, hok, hanswer⟩ :=
      hreport (by decide) (by decide)
    exact ⟨report, hanswer (hok.2 (AnalyzeRequest.not_echoes rfl rfl rfl)) rfl, haverage⟩
  · obtain ⟨-, -, hserved, -⟩ := hanalyze
      (body "\x7b\"code\": \"f\", \"language\": \"\\uD800\"\x7d")
    obtain ⟨-, -, -, hreport⟩ := hserved _ (hasks
      (r := ⟨.ofText "f".toList, [.half 0xD800 (by decide)], .ofText "untitled".toList⟩)
      (by rfl)) hjson
    obtain ⟨report, mark, -, -, -, -, -, -, hbad, hanswer, -⟩ := hreport (by decide) (by decide)
    exact hanswer (hbad.2 (.language (by decide) (by decide)))
  · obtain ⟨hunreadable, -⟩ := hanalyze [0x7B, 0xFF, 0x7D]
    exact hunreadable (Body.read_eq_unreadable_iff.1 (by rfl))

end GrowthEstimate.Service
