import GrowthEstimate.Analysis.Intake
import GrowthEstimate.Proofs.LineSplitting
import GrowthEstimate.Proofs.Rationale
import GrowthEstimate.Proofs.SpanOrder
import GrowthEstimate.Proofs.Verdict

/-!
# The outcomes of an analysis

A text is rejected, passed over or analysed, and its length alone decides which.  In the last
case the number of its lines and the headers among them decide the warning.

* `analyzeTagged_eq`: the three outcomes by length;
* `warnings_extractLines`: the warning of an analysed text;
* `confidence_mem`, `confidence_bounds`, `body?_eq_none_iff`: what holds of each function of a
  report;
* `analyzeText_layout`: the report on an analysed text;
* `analyzeTagged_outcomes`: all of it for every text and every tag.
-/

namespace GrowthEstimate

open Text (splitLines trim)

/-! ## The three outcomes -/

theorem analyzeTagged_eq (source tag : Text) :
    analyzeTagged source (some tag) =
      if source.length = 0 then .error (.rejected .empty)
      else if hardLimit < source.length then
        .error (.rejected (.tooLong source.length hardLimit))
      else .ok (analyzeText source tag) := by
  rw [analyzeTagged, validate_eq]
  by_cases hempty : source = []
  · rw [if_pos hempty, if_pos (List.length_eq_zero_iff.2 hempty)]
  · rw [if_neg hempty, if_neg (mt List.length_eq_zero_iff.1 hempty)]
    by_cases hlong : hardLimit < source.length
    · rw [if_pos hlong, if_pos (Int.ofNat_lt.2 hlong)]
    · rw [if_neg hlong, if_neg (mt Int.ofNat_lt.1 hlong)]
      rfl

theorem analyzeText_of_long {source : Text} (h : softLimit < source.length) (tag : Text) :
    analyzeText source tag = ⟨.constant, [], tag, [Warning.tooLong.text]⟩ := by
  rw [analyzeText, if_pos h]
  rfl

/-- The functions of an analysed text are the reports on its spans. -/
theorem analyzeText_of_short {source : Text} (h : source.length ≤ softLimit) (tag : Text) :
    let lines := splitLines source
    let e := extractLines lines (familyOfTag tag)
    analyzeText source tag =
      Report.ofFunctions tag (e.spans.map (analyzeSpan tag lines))
        (e.warnings.map Warning.text) := by
  rw [analyzeText, if_neg (by omega)]

/-- What is said of a function is said of a span of the text. -/
theorem exists_span_of_mem_analyzeText {source tag : Text} {f : FunctionReport}
    (h : f ∈ (analyzeText source tag).functions) :
    ∃ span ∈ (extractLines (splitLines source) (familyOfTag tag)).spans,
      analyzeSpan tag (splitLines source) span = f := by
  by_cases hlong : softLimit < source.length
  · rw [analyzeText_of_long hlong] at h
    cases h
  · rw [analyzeText_of_short (by omega)] at h
    exact List.mem_map.1 h

/-! ## The warning of an analysed text -/

theorem warnings_extractLines (lines : List Text) (family : Family) :
    (extractLines lines family).warnings =
      if lineLimit < lines.length then [.tooManyLines]
      else if lines.any fun line => (family.nameIn? (trim line)).isSome then []
      else [.noFunction] := by
  rcases extractLines_cases lines family with
    ⟨hlimit, he⟩ | ⟨hlimit, hspans, he⟩ | ⟨hlimit, hspans, he⟩
  · rw [he, if_pos hlimit]
    rfl
  · rw [he, if_neg (by omega), functionSpans_eq_nil_iff.1 hspans]
    rfl
  · have hopens : (lines.any fun line => (family.nameIn? (trim line)).isSome) = true := by
      cases hany : lines.any fun line => (family.nameIn? (trim line)).isSome with
      | true => rfl
      | false => exact absurd (functionSpans_eq_nil_iff.2 hany) hspans
    rw [he, if_neg (by omega), hopens]
    rfl

/-- A text with too many lines is one block, and what is said of the block is read off the first
lines alone. -/
theorem spans_of_truncated {lines : List Text} (h : lineLimit < lines.length) (family : Family)
    (tag : Text) :
    (extractLines lines family).spans.map (analyzeSpan tag lines) =
      [analyzeSpan tag (lines.take truncatedLines)
        (Span.onLines Span.placeholder 1 truncatedLines)] := by
  have hmin : min lines.length truncatedLines = truncatedLines := by
    unfold lineLimit at h
    unfold truncatedLines
    omega
  have hbody : (Span.onLines Span.placeholder 1 truncatedLines).body? lines =
      (Span.onLines Span.placeholder 1 truncatedLines).body? (lines.take truncatedLines) :=
    (Span.body?_take (Int.le_refl _) lines).symm
  rw [extractLines, if_pos h, hmin, List.map_singleton, analyzeSpan, analyzeSpan, estimateSpan,
    estimateSpan, hbody]

/-! ## The functions of an analysed text -/

/-- The confidence in any function is one of five doubles. -/
theorem confidence_mem (tag : Text) (lines : List Text) (span : Span) :
    (analyzeSpan tag lines span).confidence ∈ [(0.9 : Float), 0.85, 0.8, 0.7, 0.6] := by
  cases hbody : span.body? lines with
  | none =>
    rw [analyzeSpan, estimateSpan, hbody]
    exact List.mem_cons_self
  | some body =>
    rw [analyzeSpan_of_body hbody]
    simp only [Span.report, Estimate.ofBody_confidence]
    exact Signals.certainty_mem _

theorem confidence_bounds (tag : Text) (lines : List Text) (span : Span) :
    (0.6 : Float) ≤ (analyzeSpan tag lines span).confidence
      ∧ (analyzeSpan tag lines span).confidence ≤ 0.9 := by
  have hbounds : ∀ c ∈ [(0.9 : Float), 0.85, 0.8, 0.7, 0.6], (0.6 : Float) ≤ c ∧ c ≤ 0.9 := by
    decide
  exact hbounds _ (confidence_mem tag lines span)

/-- A span of a text has no body just when its range is empty: a range that is not empty lies
inside the text, and a function that carries its body stands on one line. -/
theorem body?_eq_none_iff {lines : List Text} {family : Family} {span : Span}
    (h : span ∈ (extractLines lines family).spans) :
    span.body? lines = none ↔ span.last < span.first := by
  obtain ⟨hfirst, -, hlast⟩ := bounds_of_mem_extractLines h
  have hinline : span.inlineBody.isSome → span.first ≤ span.last := by
    intro hbody
    obtain ⟨n, -, -, -, hn, hn'⟩ := header_of_mem_extractLines h hbody
    omega
  have hrange : max (span.first - 1) 0 < min span.last lines.length ↔ span.first ≤ span.last := by
    omega
  rw [← Option.not_isSome_iff_eq_none, Span.body?_isSome_iff, hrange]
  constructor
  · intro hnone
    by_cases hle : span.first ≤ span.last
    · exact absurd (Or.inr hle) hnone
    · omega
  · rintro hlt (hbody | hle)
    · have hle := hinline hbody
      omega
    · omega

/-- A report on at least one function, with the tag of the caller, the join of its functions and
at most one warning. -/
theorem analyzeText_layout {source : Text} (h : source.length ≤ softLimit) (tag : Text) :
    let lines := splitLines source
    let family := familyOfTag tag
    let report := analyzeText source tag
    report.language = tag
      ∧ report.functions ≠ []
      ∧ report.overall = Growth.joinAll (report.functions.map (·.growth))
      ∧ report.warnings =
          (if lineLimit < lines.length then [Warning.tooManyLines]
          else if lines.any fun line => (family.nameIn? (trim line)).isSome then []
          else [Warning.noFunction]).map Warning.text
      ∧ (lineLimit < lines.length → report.functions =
          [analyzeSpan tag (lines.take truncatedLines)
            (Span.onLines Span.placeholder 1 truncatedLines)])
      ∧ ∀ f ∈ report.functions,
          ((0.6 : Float) ≤ f.confidence ∧ f.confidence ≤ 0.9)
            ∧ (f.rationale = [Note.unreadableBody.text] ↔ f.last < f.first) := by
  intro lines family report
  have hreport : report = Report.ofFunctions tag
      ((extractLines lines family).spans.map (analyzeSpan tag lines))
      ((extractLines lines family).warnings.map Warning.text) := analyzeText_of_short h tag
  rw [hreport]
  refine ⟨rfl, ?_, overallOf_eq_joinAll _, ?_, ?_, ?_⟩
  · intro hnone
    exact extractLines_spans_ne_nil lines family (List.map_eq_nil_iff.1 hnone)
  · rw [← warnings_extractLines]
    rfl
  · intro hlines
    exact spans_of_truncated hlines family tag
  · intro f hf
    obtain ⟨span, hspan, rfl⟩ := List.mem_map.1 hf
    refine ⟨confidence_bounds tag lines span, ?_⟩
    rw [rationale_eq_unreadable_iff, body?_eq_none_iff hspan]
    rfl

/-- For every text and every tag: the text is rejected just when it is empty or has more than
500000 characters, and nothing else makes the analysis fail; it is passed over with one warning
when it has more than 100000; and otherwise its report is the join of at least one function, with
one warning when its lines were too many or opened no function, and none else. -/
theorem analyzeTagged_outcomes (source tag : Text) :
    let lines := splitLines source
    let family := familyOfTag tag
    ((source.length = 0 ∨ 500000 < source.length) ↔
        ∃ failure, analyzeTagged source (some tag) = .error failure)
      ∧ (∀ failure, analyzeTagged source (some tag) = .error failure →
          ∃ reason, failure = .rejected reason ∧ reason.length = source.length)
      ∧ (100000 < source.length → source.length ≤ 500000 →
          analyzeTagged source (some tag) = .ok ⟨.constant, [], tag, [Warning.tooLong.text]⟩)
      ∧ (0 < source.length → source.length ≤ 100000 →
          ∃ report, analyzeTagged source (some tag) = .ok report
            ∧ report.language = tag
            ∧ report.functions ≠ []
            ∧ report.overall = Growth.joinAll (report.functions.map (·.growth))
            ∧ report.warnings =
                (if 10000 < lines.length then [Warning.tooManyLines]
                else if lines.any fun line => (family.nameIn? (trim line)).isSome then []
                else [Warning.noFunction]).map Warning.text
            ∧ (10000 < lines.length → report.functions =
                [analyzeSpan tag (lines.take 1000) (Span.onLines "main".toList 1 1000)])
            ∧ ∀ f ∈ report.functions,
                ((0.6 : Float) ≤ f.confidence ∧ f.confidence ≤ 0.9)
                  ∧ (f.rationale = [Note.unreadableBody.text] ↔ f.last < f.first)) := by
  intro lines family
  have hoversize : hardLimit < source.length ↔ 500000 < source.length := Iff.rfl
  have houtcome := analyzeTagged_eq source tag
  by_cases hempty : source.length = 0
  · rw [if_pos hempty] at houtcome
    refine ⟨⟨fun _ => ⟨_, houtcome⟩, fun _ => Or.inl hempty⟩, ?_, ?_, ?_⟩
    · intro failure hfailure
      rw [houtcome] at hfailure
      cases hfailure
      exact ⟨.empty, rfl, hempty.symm⟩
    · omega
    · omega
  · rw [if_neg hempty] at houtcome
    by_cases hlong : 500000 < source.length
    · rw [if_pos (hoversize.2 hlong)] at houtcome
      refine ⟨⟨fun _ => ⟨_, houtcome⟩, fun _ => Or.inr hlong⟩, ?_, ?_, ?_⟩
      · intro failure hfailure
        rw [houtcome] at hfailure
        cases hfailure
        exact ⟨.tooLong source.length hardLimit, rfl, rfl⟩
      · omega
      · omega
    · rw [if_neg (fun h => hlong (hoversize.1 h))] at houtcome
      refine ⟨⟨?_, ?_⟩, ?_, ?_, ?_⟩
      · omega
      · rintro ⟨failure, hfailure⟩
        rw [houtcome] at hfailure
        cases hfailure
      · intro failure hfailure
        rw [houtcome] at hfailure
        cases hfailure
      · intro hpassed _
        rw [houtcome, analyzeText_of_long hpassed]
      · intro _ hshort
        exact ⟨analyzeText source tag, houtcome, analyzeText_layout hshort tag⟩

end GrowthEstimate
