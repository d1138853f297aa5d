import GrowthEstimate.Proofs.Composition
import GrowthEstimate.Proofs.FunctionNames
import GrowthEstimate.Proofs.Indenting

/-!
# The layout of a text

Blanks at the ends of lines do not count.  By braces they may stand there in any number.  In an
indented language they tell where a function ends, so a text may only be indented as a whole.

* `loopDepth_joinLines_of_offMargin`: the depth of loops in lines off the margin;
* `analyzeSpan_eq_of_bare`: the report on one span;
* `analyze_eq_of_bare`, `analyze_eq_of_indent`: the report on a text, by braces and indented;
* `analyze_eq_of_layout`: both;
* `analyze_eq_of_lineEnds`: what the lines of a text end with does not count either.
-/

namespace GrowthEstimate

open Text Header

/-! ## Loops off the margin -/

open Body in
theorem loopDepth_joinLines_of_offMargin {lines : List Text}
    (hplain : ∀ line ∈ lines, ∀ c ∈ line, isLineEnd c = false)
    (hoff : ∀ line ∈ lines, (trim line).isEmpty = false → line.head?.any isBlank = true) :
    loopDepth .indentation (joinLines lines) =
      min (((lines.map trim).take loopScanLines).countP (isLoopStart .indentation))
        deepestLoop := by
  have hskip : ∀ line ∈ lines.take loopScanLines, isSkipped (trim line) = false →
      line.head?.any isBlank = true := by
    intro line hline hskip
    apply hoff line (List.mem_of_mem_take hline)
    simp only [isSkipped, Bool.or_eq_false_iff] at hskip
    exact hskip.1.1
  rw [loopDepth_eq .indentation (hasLines_joinLines hplain), Nesting.outside,
    afterLines_level hskip, Nat.zero_add, ← List.map_take, List.countP_map]
  rfl

/-! ## One span -/

theorem isPhrase_builtin (tag : Text) : ∀ b ∈ builtinsOfTag tag, isPhrase b.name = true := by
  rw [builtinsOfTag]
  cases Language.ofTag? tag with
  | none => simp
  | some language => cases language <;> decide

theorem isPhrase_callOf_of_mem {source : Text} {family : Family} {span : Span}
    (h : span ∈ (extractLines (splitLines source) family).spans) :
    isPhrase (Body.callOf span.name) = true := by
  rcases name_of_mem_extractLines h with hname | ⟨line, hline, hname⟩
  · rw [hname]
    decide
  · refine isPhrase_callOf_of_nameIn? (fun hfeed => ?_) hname
    have hend := not_isLineEnd_of_mem_splitLines hline '\n' (mem_trim hfeed)
    cases hend

theorem not_isLineEnd_of_mem_bodyLines {source : Text} {span : Span} {line : Text}
    (h : line ∈ span.bodyLines (splitLines source)) : ∀ c ∈ line, isLineEnd c = false :=
  not_isLineEnd_of_mem_splitLines (List.mem_of_mem_drop (List.mem_of_mem_take h))

theorem map_bare_bodyLines_eq {lines lines' : List Text} (h : lines.map bare = lines'.map bare)
    (span : Span) :
    (span.bodyLines lines).map bare = (span.bodyLines lines').map bare := by
  simp only [Span.bodyLines, List.map_take, List.map_drop, h]

/-- A span gets the same report in two texts whose lines are bare the same, provided that the loops
of its body are nested equally deep. -/
theorem analyzeSpan_eq_of_bare {source source' tag : Text} {span : Span}
    (h : (splitLines source).map bare = (splitLines source').map bare)
    (hspan : span ∈ (extractLines (splitLines source) (familyOfTag tag)).spans)
    (hloops : Body.loopDepth (familyOfTag tag) (joinLines (span.bodyLines (splitLines source))) =
      Body.loopDepth (familyOfTag tag) (joinLines (span.bodyLines (splitLines source')))) :
    analyzeSpan tag (splitLines source) span = analyzeSpan tag (splitLines source') span := by
  cases hinline : span.inlineBody with
  | some body =>
    rw [analyzeSpan_of_body (Span.body?_inline hinline _),
      analyzeSpan_of_body (Span.body?_inline hinline _)]
  | none =>
    have hbody := map_bare_bodyLines_eq h span
    have hempty : span.bodyLines (splitLines source) = [] ↔
        span.bodyLines (splitLines source') = [] := by
      rw [← List.map_eq_nil_iff, hbody, List.map_eq_nil_iff]
    by_cases hnone : span.bodyLines (splitLines source) = []
    · rw [analyzeSpan, analyzeSpan, estimateSpan, estimateSpan, Span.body?_eq_none hinline hnone,
        Span.body?_eq_none hinline (hempty.1 hnone)]
    · have hread := Span.body?_of_bodyLines hinline rfl hnone
      have hread' := Span.body?_of_bodyLines hinline rfl (mt hempty.2 hnone)
      have hsignals := Signals.ofBody_eq_of_bare (isPhrase_builtin tag)
        (isPhrase_callOf_of_mem hspan) (fun _ => not_isLineEnd_of_mem_bodyLines)
        (fun _ => not_isLineEnd_of_mem_bodyLines) hbody hloops
      rw [analyzeSpan_of_body hread, analyzeSpan_of_body hread', Estimate.ofBody,
        Estimate.ofBody, hsignals]

/-! ## The functions of a text in braces -/

theorem braceBalance_trim (line : Text) : braceBalance (trim line) = braceBalance line := by
  have hopen : isBlank '\x7b' = false := rfl
  have hclose : isBlank '\x7d' = false := rfl
  rw [braceBalance, braceBalance, count_trim hopen, count_trim hclose]

theorem bracedExtent_trim (opener : Text → Option Text) (balance : Int) (lines : List Text) :
    bracedExtent opener balance (lines.map trim) = bracedExtent opener balance lines := by
  induction lines generalizing balance with
  | nil => rfl
  | cons line rest ih =>
    rw [List.map_cons, bracedExtent, bracedExtent, trim_trim, braceBalance_trim, ih]

theorem bracedSpanAt_trim (opener : Text → Option Text) (read : Nat) (line : Text)
    (rest : List Text) :
    bracedSpanAt opener read (trim line) (rest.map trim) = bracedSpanAt opener read line rest := by
  rw [bracedSpanAt, bracedSpanAt, trim_trim, braceBalance_trim, bracedExtent_trim]

theorem functionSpans_eq_of_trim {family : Family} (hfamily : family ≠ .indentation)
    {lines lines' : List Text} (h : lines.map trim = lines'.map trim) :
    functionSpans family lines = functionSpans family lines' := by
  have htrim : ∀ lines : List Text,
      functionSpans family (lines.map trim) = functionSpans family lines := by
    intro lines
    rw [functionSpans_eq, functionSpans_eq]
    apply spansFrom_map
    cases family with
    | indentation => exact absurd rfl hfamily
    | brace | script | generic => exact bracedSpanAt_trim _
  rw [← htrim lines, h, htrim]

/-! ## Whole texts -/

theorem extractLines_eq_of_functionSpans {family : Family} {lines lines' : List Text}
    (hlength : lines.length = lines'.length)
    (hspans : functionSpans family lines = functionSpans family lines') :
    extractLines lines family = extractLines lines' family := by
  rw [extractLines, extractLines, hlength, hspans]

/-- Two texts in which the same functions stand on the same lines have the same report, when each
of the functions has. -/
theorem analyze_eq_of_spans {tag source source' : Text} (hne : source ≠ []) (hne' : source' ≠ [])
    (hshort : source.length ≤ softLimit) (hshort' : source'.length ≤ softLimit)
    (hspans : extractLines (splitLines source) (familyOfTag tag) =
      extractLines (splitLines source') (familyOfTag tag))
    (hreports : ∀ span ∈ (extractLines (splitLines source) (familyOfTag tag)).spans,
      analyzeSpan tag (splitLines source) span = analyzeSpan tag (splitLines source') span) :
    ∃ report, analyze source tag = .ok report ∧ analyze source' tag = .ok report := by
  refine ⟨_, analyze_of_short hne hshort tag, ?_⟩
  rw [analyze_of_short hne' hshort', analyzeText_of_short hshort, analyzeText_of_short hshort',
    ← hspans, List.map_congr_left hreports]

/-- Of a text that is analysed, nothing counts but its lines. -/
theorem analyze_eq_of_splitLines {tag source source' : Text} (hne : source ≠ [])
    (hne' : source' ≠ []) (hshort : source.length ≤ softLimit)
    (hshort' : source'.length ≤ softLimit) (h : splitLines source = splitLines source') :
    ∃ report, analyze source tag = .ok report ∧ analyze source' tag = .ok report := by
  refine analyze_eq_of_spans hne hne' hshort hshort' ?_ ?_
  · rw [h]
  · intro span _
    rw [h]

/-- By braces, blanks around a line count only in a line of blanks alone. -/
theorem analyze_eq_of_bare {tag source source' : Text} (hfamily : familyOfTag tag ≠ .indentation)
    (hne : source ≠ []) (hne' : source' ≠ []) (hshort : source.length ≤ softLimit)
    (hshort' : source'.length ≤ softLimit)
    (h : (splitLines source).map bare = (splitLines source').map bare) :
    ∃ report, analyze source tag = .ok report ∧ analyze source' tag = .ok report := by
  have hlength : (splitLines source).length = (splitLines source').length := by
    simpa using congrArg List.length h
  refine analyze_eq_of_spans hne hne' hshort hshort' ?_ ?_
  · exact extractLines_eq_of_functionSpans hlength
      (functionSpans_eq_of_trim hfamily (map_trim_eq_of_bare h))
  · intro span hspan
    have hcut := map_bare_splitLines_joinLines (fun _ => not_isLineEnd_of_mem_bodyLines)
      (fun _ => not_isLineEnd_of_mem_bodyLines) (map_bare_bodyLines_eq h span)
    exact analyzeSpan_eq_of_bare h hspan
      (Body.loopDepth_eq_of_trim hfamily (map_trim_eq_of_bare hcut))

/-- The functions of an indented language stand off the margin with their bodies, before and
behind, so no loop is closed in either text. -/
theorem analyze_eq_of_indent {tag source pad : Text} (hfamily : familyOfTag tag = .indentation)
    (hpad : ∀ c ∈ pad, isBlank c = true ∧ isLineEnd c = false)
    (hdetected : (extract source tag).detected = true)
    (hcount : (splitLines source).length ≤ lineLimit)
    (hshort : (indentText pad source).length ≤ softLimit) :
    ∃ report, analyze source tag = .ok report
      ∧ analyze (indentText pad source) tag = .ok report := by
  have hlength := length_le_indentText pad source
  have hlines := splitLines_indentText hpad source
  have hne : source ≠ [] := by
    rintro rfl
    have hfunctions := functionSpans_ne_nil_of_detected hcount hdetected
    rw [hfamily] at hfunctions
    exact hfunctions rfl
  have hne' : indentText pad source ≠ [] := by
    intro hnil
    rw [hnil] at hlength
    exact hne (List.eq_nil_of_length_eq_zero (Nat.le_zero.1 hlength))
  have hspans : functionSpans .indentation (splitLines source) =
      functionSpans .indentation (splitLines (indentText pad source)) := by
    rw [hlines, functionSpans_indentLine hpad]
  have hbare : (splitLines source).map bare = (splitLines (indentText pad source)).map bare := by
    rw [hlines, List.map_map]
    exact List.map_congr_left fun line _ => (bare_indentLine hpad line).symm
  refine analyze_eq_of_spans hne hne' (by omega) hshort ?_ ?_
  · rw [hfamily]
    exact extractLines_eq_of_functionSpans (by simp [hlines]) hspans
  · intro span hspan
    have hfunction : span ∈ functionSpans .indentation (splitLines source) := by
      rwa [spans_of_functions hcount hdetected, hfamily] at hspan
    have hfunction' : span ∈ functionSpans .indentation (splitLines (indentText pad source)) := by
      rwa [← hspans]
    have hbody := map_trim_eq_of_bare (map_bare_bodyLines_eq hbare span)
    refine analyzeSpan_eq_of_bare hbare hspan ?_
    rw [hfamily,
      loopDepth_joinLines_of_offMargin (fun _ => not_isLineEnd_of_mem_bodyLines)
        (fun _ => head_isBlank_of_mem_bodyLines hfunction),
      loopDepth_joinLines_of_offMargin (fun _ => not_isLineEnd_of_mem_bodyLines)
        (fun _ => head_isBlank_of_mem_bodyLines hfunction'), hbody]

/-- Two texts get the same report when their lines agree but for the blanks around them, with blank
lines the same.  An indented language takes that only for blanks put in front of every line that
is not blank, the same everywhere, and in a text with functions. -/
theorem analyze_eq_of_layout (tag : Text) :
    (familyOfTag tag ≠ .indentation →
      ∀ source source' : Text, 1 ≤ source.length → source.length ≤ 100000 →
        1 ≤ source'.length → source'.length ≤ 100000 →
        List.Forall₂ (fun a b => trim a = trim b ∧ (trim a = [] → a = b))
          (splitLines source) (splitLines source') →
        ∃ report, analyze source tag = .ok report ∧ analyze source' tag = .ok report)
      ∧ (familyOfTag tag = .indentation →
        ∀ source pad : Text, (extract source tag).detected = true →
          (splitLines source).length ≤ 10000 →
          (∀ c ∈ pad, isBlank c = true ∧ isLineEnd c = false) →
          (indentText pad source).length ≤ 100000 →
          ∃ report, analyze source tag = .ok report
            ∧ analyze (indentText pad source) tag = .ok report) := by
  refine ⟨?_, ?_⟩
  · intro hfamily source source' hsome hshort hsome' hshort' hlines
    exact analyze_eq_of_bare hfamily (List.ne_nil_of_length_pos hsome)
      (List.ne_nil_of_length_pos hsome') hshort hshort' (map_bare_eq_of_forall₂ hlines)
  · intro hfamily source pad hdetected hcount hpad hshort
    exact analyze_eq_of_indent hfamily hpad hdetected hcount hshort

/-- A function in braces with its lines moved about, and an indented one inside a margin. -/
theorem analyze_eq_of_layout_moved :
    let source := "int f(int n) \x7b\n\n  for (;;) \x7b\n    f(n / 2);\n  \x7d\n\x7d".toList
    let source' := "int f(int n) \x7b  \r\n\nfor (;;) \x7b\t\n  f(n / 2);\n\x7d\n \x7d".toList
    let indented := "def f(a):\n  for x in a:\n\n    f(x)\n".toList
    let indented' := "\tdef f(a):\n\t  for x in a:\n\n\t    f(x)\n".toList
    (∃ report, analyze source "c".toList = .ok report ∧ analyze source' "c".toList = .ok report)
      ∧ ∃ report, analyze indented "py".toList = .ok report
        ∧ analyze indented' "py".toList = .ok report := by
  intro source source' indented indented'
  have hlines : List.Forall₂ (fun a b => trim a = trim b ∧ (trim a = [] → a = b))
      (splitLines source) (splitLines source') := by decide +kernel
  have hindent : indented' = indentText "\t".toList indented := by decide +kernel
  have hpad : ∀ c ∈ "\t".toList, isBlank c = true ∧ isLineEnd c = false := by
    intro c hc
    obtain rfl : c = '\t' := by simpa using hc
    exact ⟨rfl, rfl⟩
  refine ⟨?_, ?_⟩
  · exact (analyze_eq_of_layout "c".toList).1 (by decide +kernel) source source'
      (by decide +kernel) (by decide +kernel) (by decide +kernel) (by decide +kernel) hlines
  · rw [hindent]
    exact (analyze_eq_of_layout "py".toList).2 (by decide +kernel) indented "\t".toList
      (by decide +kernel) (by decide +kernel) hpad (by decide +kernel)

/-- Lines that are joined by one line end or by another make texts with the same report.  It may
stand behind the last line too, in both texts or, unless that line is empty, in one of them. -/
theorem analyze_eq_of_lineEnds (tag : Text) (lines : List Text)
    (hplain : ∀ line ∈ lines, ∀ c ∈ line, isLineEnd c = false) (sep sep' : Text)
    (hsep : sep ∈ lineEnds) (hsep' : sep' ∈ lineEnds) (ended ended' : Bool)
    (hended : ended = ended' ∨ ∃ last, lines.getLast? = some last ∧ last ≠ [])
    (hsome : 1 ≤ (joinedWith sep ended lines).length)
    (hshort : (joinedWith sep ended lines).length ≤ 100000)
    (hsome' : 1 ≤ (joinedWith sep' ended' lines).length)
    (hshort' : (joinedWith sep' ended' lines).length ≤ 100000) :
    ∃ report, analyze (joinedWith sep ended lines) tag = .ok report
      ∧ analyze (joinedWith sep' ended' lines) tag = .ok report := by
  refine analyze_eq_of_splitLines (List.ne_nil_of_length_pos hsome)
    (List.ne_nil_of_length_pos hsome') hshort hshort' ?_
  rw [splitLines_joinedWith hsep hplain, splitLines_joinedWith hsep' hplain]
  rcases hended with rfl | ⟨last, hlast, hne⟩
  · rfl
  · have hlines : lines ≠ [] := by
      rintro rfl
      cases hlast
    have hkept : lines.getLast? ≠ some [] := by simpa [hlast] using hne
    simp only [if_neg hlines, if_neg hkept, ite_self]

/-- A loop and an empty line, once as a line-feed text without an end, once with pairs, and once
with a separator that no line is ever seen to end with. -/
theorem analyze_eq_of_lineEnds_pairs :
    let lines := ["def f(a):", "  for x in a:", "", "    g(x)"].map String.toList
    (∃ report,
        analyze "def f(a):\n  for x in a:\n\n    g(x)".toList "py".toList = .ok report
          ∧ analyze "def f(a):\r\n  for x in a:\r\n\r\n    g(x)\r\n".toList "py".toList =
            .ok report)
      ∧ ∃ report, analyze (joinedWith "\r".toList true (lines ++ [[]])) "py".toList = .ok report
        ∧ analyze (joinedWith "\u2029".toList true (lines ++ [[]])) "py".toList = .ok report := by
  intro lines
  have hfree : (lines ++ [[]]).all (fun line => !line.any isLineEnd) = true := by decide +kernel
  have hplain' : ∀ line ∈ lines ++ [[]], ∀ c ∈ line, isLineEnd c = false := by
    intro line hline c hc
    have hline' := List.all_eq_true.1 hfree line hline
    simp only [Bool.not_eq_true', List.any_eq_false, Bool.not_eq_true] at hline'
    exact hline' c hc
  have hplain : ∀ line ∈ lines, ∀ c ∈ line, isLineEnd c = false := fun line hline =>
    hplain' line (List.mem_append_left _ hline)
  refine ⟨?_, ?_⟩
  · exact analyze_eq_of_lineEnds "py".toList lines hplain "\n".toList "\r\n".toList (by decide)
      (by decide) false true (Or.inr ⟨"    g(x)".toList, by decide +kernel, by decide⟩)
      (by decide +kernel) (by decide +kernel) (by decide +kernel) (by decide +kernel)
  · exact analyze_eq_of_lineEnds "py".toList (lines ++ [[]]) hplain' "\r".toList
      "\u2029".toList (by decide) (by decide) true true (Or.inl rfl) (by decide +kernel)
      (by decide +kernel) (by decide +kernel) (by decide +kernel)

end GrowthEstimate
