import GrowthEstimate.Proofs.Layout

/-!
# A blank line more

A blank line put into a text opens no function and ends none.  It becomes one of the lines of at
most one function, and there it is seen by nothing but the search for a tail call, which looks at
the last ten lines.

* `AddsBlank`: two lists of lines, the second with a blank line put in;
* `AddsBlank.takeWhile`, `AddsBlank.take_bracedExtent`: how far a function reaches;
* `forall₂_extractLines`: the functions of the two texts, one by one;
* `judged_of_gainsBlank`: class and confidence of a function without self-calls;
* `analyze_insert_blank`: the two reports.
-/

namespace GrowthEstimate

open Text Header

/-! ## Lines with a blank one put in -/

/-- The second list is the first one with a blank line put in, or is the same. -/
inductive AddsBlank : List Text → List Text → Prop
  | same (lines : List Text) : AddsBlank lines lines
  | here {blank : Text} (h : trim blank = []) (lines : List Text) : AddsBlank lines (blank :: lines)
  | behind (line : Text) {lines lines' : List Text} (h : AddsBlank lines lines') :
    AddsBlank (line :: lines) (line :: lines')

namespace AddsBlank

variable {lines lines' : List Text}

theorem of_split {blank : Text} (h : trim blank = []) (before after : List Text) :
    AddsBlank (before ++ after) (before ++ blank :: after) := by
  induction before with
  | nil => exact .here h after
  | cons line before ih => exact .behind line ih

theorem length_le (h : AddsBlank lines lines') : lines'.length ≤ lines.length + 1 := by
  induction h with
  | same lines => omega
  | here hblank lines => exact Nat.le_refl _
  | behind line _ ih =>
    simp only [List.length_cons]
    omega

theorem inked_eq (h : AddsBlank lines lines') : inked lines = inked lines' := by
  induction h with
  | same lines => rfl
  | here hblank lines => rw [inked_cons_of_blank hblank]
  | behind line _ ih =>
    by_cases hblank : trim line = []
    · rw [inked_cons_of_blank hblank, inked_cons_of_blank hblank, ih]
    · rw [inked_cons_of_not_blank hblank, inked_cons_of_not_blank hblank, ih]

/-- A search that passes over blank lines ends at the same line. -/
theorem takeWhile (h : AddsBlank lines lines') {p : Text → Bool}
    (hp : ∀ blank, trim blank = [] → p blank = true) :
    AddsBlank (lines.takeWhile p) (lines'.takeWhile p) := by
  induction h with
  | same lines => exact .same _
  | here hblank lines =>
    rw [List.takeWhile_cons_of_pos (hp _ hblank)]
    exact .here hblank _
  | behind line _ ih =>
    rw [List.takeWhile_cons, List.takeWhile_cons]
    split
    · exact .behind line ih
    · exact .same []

theorem take_indentedExtent (h : AddsBlank lines lines') (indent : Nat) :
    AddsBlank (lines.take (indentedExtent indent lines))
      (lines'.take (indentedExtent indent lines')) := by
  rw [GrowthEstimate.take_indentedExtent, GrowthEstimate.take_indentedExtent]
  apply h.takeWhile
  intro blank hblank
  rw [endsIndented_of_blank (List.isEmpty_iff.2 hblank)]
  rfl

/-- A blank line leaves the braces that are open as they are, and there are some as long as the
function goes on. -/
theorem take_bracedExtent (h : AddsBlank lines lines') {opener : Text → Option Text}
    (hopener : opener [] = none) {balance : Int} (hopen : 0 < balance) :
    AddsBlank (lines.take (bracedExtent opener balance lines))
      (lines'.take (bracedExtent opener balance lines')) := by
  induction h generalizing balance with
  | same lines => exact .same _
  | @here blank hblank lines =>
    have hbalance : braceBalance blank = 0 := by
      rw [← braceBalance_trim, hblank]
      rfl
    have hextent : bracedExtent opener balance (blank :: lines) =
        bracedExtent opener balance lines + 1 := by
      have hstill : ¬ balance ≤ 0 := by omega
      rw [bracedExtent, hblank, hopener, hbalance]
      simp only [Option.isSome_none, Bool.false_eq_true, if_false, if_neg hstill, Int.add_zero]
    rw [hextent, List.take_succ_cons]
    exact .here hblank _
  | behind line _ ih =>
    rw [bracedExtent, bracedExtent]
    split
    · exact .same []
    · split
      · exact .same [line]
      · rw [List.take_succ_cons, List.take_succ_cons]
        exact .behind line (ih (by omega))

theorem afterLines_eq (h : AddsBlank lines lines') (family : Family) (n : Body.Nesting) :
    n.afterLines family lines = n.afterLines family lines' := by
  induction h generalizing n with
  | same lines => rfl
  | here hblank lines =>
    have hskip : Body.isSkipped (trim _) = true := congrArg Body.isSkipped hblank
    rw [Body.Nesting.afterLines, Body.Nesting.afterLines, List.foldl_cons,
      Body.Nesting.after_of_skipped hskip]
  | behind line _ ih => exact ih (n.after family line)

/-- With the line more there are no more lines than are searched for loops. -/
theorem loopDepth_eq (h : AddsBlank lines lines')
    (hplain : ∀ line ∈ lines, ∀ c ∈ line, isLineEnd c = false)
    (hplain' : ∀ line ∈ lines', ∀ c ∈ line, isLineEnd c = false)
    (hcount : lines.length < Body.loopScanLines) (family : Family) :
    Body.loopDepth family (joinLines lines) = Body.loopDepth family (joinLines lines') := by
  have hlength := h.length_le
  rw [Body.loopDepth_eq family (hasLines_joinLines hplain),
    Body.loopDepth_eq family (hasLines_joinLines hplain'), List.take_of_length_le (by omega),
    List.take_of_length_le (by omega), h.afterLines_eq]

end AddsBlank

/-! ## The functions of the two texts -/

/-- The spans of one function in a text and in that text with a blank line put in. -/
structure GainsBlank (lines lines' : List Text) (span span' : Span) : Prop where
  name : span'.name = span.name
  inlineBody : span'.inlineBody = span.inlineBody
  bodyLines : AddsBlank (span.bodyLines lines) (span'.bodyLines lines')

theorem Family.nameIn?_nil (family : Family) : family.nameIn? [] = none := by
  cases family <;> rfl

theorem forall₂_indentedSpanAt {rest rest' : List Text} (h : AddsBlank rest rest')
    (before : List Text) (line : Text) :
    List.Forall₂ (GainsBlank (before ++ line :: rest) (before ++ line :: rest'))
      (indentedSpanAt before.length line rest).toList
      (indentedSpanAt before.length line rest').toList := by
  cases hname : indentedName? (trim line) with
  | none => simp [indentedSpanAt, hname]
  | some name =>
    simp only [indentedSpanAt, hname, Option.map_some, Option.toList_some]
    refine List.Forall₂.cons ⟨rfl, rfl, ?_⟩ .nil
    rw [Span.bodyLines_onLines, Span.bodyLines_onLines]
    exact h.take_indentedExtent _

theorem forall₂_bracedSpanAt {opener : Text → Option Text} (hopener : opener [] = none)
    {rest rest' : List Text} (h : AddsBlank rest rest') (before : List Text) (line : Text) :
    List.Forall₂ (GainsBlank (before ++ line :: rest) (before ++ line :: rest'))
      (bracedSpanAt opener before.length line rest).toList
      (bracedSpanAt opener before.length line rest').toList := by
  cases hname : opener (trim line) with
  | none => simp [bracedSpanAt, hname]
  | some name =>
    simp only [bracedSpanAt, hname, Option.map_some, Option.toList_some]
    by_cases hclosed : braceBalance line ≤ 0
    · rw [if_pos hclosed, if_pos hclosed]
      -- such a span does not reach behind its header
      have hlast : (oneLineSpan name (trim line) (before.length + 1)).last ≤
          (before ++ [line]).length := by
        rw [oneLineSpan_last]
        simp
      refine List.Forall₂.cons ⟨rfl, rfl, ?_⟩ .nil
      rw [List.append_cons before line rest, List.append_cons before line rest',
        Span.bodyLines_append_left hlast, Span.bodyLines_append_left hlast]
      exact .same _
    · rw [if_neg hclosed, if_neg hclosed]
      refine List.Forall₂.cons ⟨rfl, rfl, ?_⟩ .nil
      rw [Span.bodyLines_onLines, Span.bodyLines_onLines]
      exact h.take_bracedExtent hopener (by omega)

theorem forall₂_spanAt (family : Family) {rest rest' : List Text} (h : AddsBlank rest rest')
    (before : List Text) (line : Text) :
    List.Forall₂ (GainsBlank (before ++ line :: rest) (before ++ line :: rest'))
      (family.spanAt before.length line rest).toList
      (family.spanAt before.length line rest').toList := by
  cases family with
  | indentation => exact forall₂_indentedSpanAt h before line
  | brace | script | generic => exact forall₂_bracedSpanAt rfl h before line

/-- Functions behind the blank line have the same lines for their bodies, one place further down. -/
theorem forall₂_spansFrom_shift (family : Family) {blank : Text} (h : trim blank = [])
    (before lines : List Text) :
    List.Forall₂ (GainsBlank (before ++ lines) (before ++ blank :: lines))
      (spansFrom family.spanAt before.length lines)
      (spansFrom family.spanAt before.length (blank :: lines)) := by
  have hnone : family.spanAt before.length blank lines = none := by
    rw [← Option.not_isSome_iff_eq_none, family.isSome_spanAt, h, family.nameIn?_nil]
    exact Bool.false_ne_true
  have hshift : ∀ front : List Text, spansFrom family.spanAt front.length lines =
      (functionSpans family lines).map (·.shift front.length) := by
    intro front
    rw [functionSpans_eq, ← spansFrom_shift, Nat.zero_add]
  have hnext : before.length + 1 = (before ++ [blank]).length := by simp
  rw [spansFrom, hnone, hnext, hshift, hshift (before ++ [blank]), List.append_cons before blank]
  simp only [Option.toList_none, List.nil_append, List.forall₂_map_left_iff,
    List.forall₂_map_right_iff]
  refine List.forall₂_same.2 ?_
  intro span hspan
  obtain ⟨hfirst, hlast, -⟩ := bounds_of_mem_functionSpans hspan
  refine ⟨rfl, rfl, ?_⟩
  rw [Span.bodyLines_shift hfirst (by omega), Span.bodyLines_shift hfirst (by omega)]
  exact .same _

theorem forall₂_spansFrom (family : Family) {lines lines' : List Text} (h : AddsBlank lines lines')
    (before : List Text) :
    List.Forall₂ (GainsBlank (before ++ lines) (before ++ lines'))
      (spansFrom family.spanAt before.length lines)
      (spansFrom family.spanAt before.length lines') := by
  induction h generalizing before with
  | same lines => exact List.forall₂_same.2 fun span _ => ⟨rfl, rfl, .same _⟩
  | here hblank lines => exact forall₂_spansFrom_shift family hblank before lines
  | @behind line lines lines' h ih =>
    have hnext : before.length + 1 = (before ++ [line]).length := by simp
    rw [spansFrom, spansFrom, hnext]
    refine List.rel_append (forall₂_spanAt family h before line) ?_
    rw [List.append_cons before line lines, List.append_cons before line lines']
    exact ih (before ++ [line])

theorem forall₂_functionSpans (family : Family) {lines lines' : List Text}
    (h : AddsBlank lines lines') :
    List.Forall₂ (GainsBlank lines lines') (functionSpans family lines)
      (functionSpans family lines') := by
  rw [functionSpans_eq, functionSpans_eq]
  exact forall₂_spansFrom family h []

theorem forall₂_extractLines (family : Family) {lines lines' : List Text}
    (h : AddsBlank lines lines') (hcount : lines.length < lineLimit) :
    List.Forall₂ (GainsBlank lines lines') (extractLines lines family).spans
      (extractLines lines' family).spans := by
  have hfunctions := forall₂_functionSpans family h
  have hlength := h.length_le
  rcases extractLines_cases lines family with ⟨hmany, -⟩ | ⟨-, hnone, he⟩ | ⟨-, hsome, he⟩
  · omega
  · rcases extractLines_cases lines' family with ⟨hmany, -⟩ | ⟨-, -, he'⟩ | ⟨-, hsome', -⟩
    · omega
    · rw [he, he']
      refine List.Forall₂.cons ⟨rfl, rfl, ?_⟩ .nil
      rw [Span.bodyLines_onLines_one, Span.bodyLines_onLines_one, List.take_length,
        List.take_length]
      exact h
    · rw [hnone, List.forall₂_nil_left_iff] at hfunctions
      exact absurd hfunctions hsome'
  · rcases extractLines_cases lines' family with ⟨hmany, -⟩ | ⟨-, hnone', -⟩ | ⟨-, -, he'⟩
    · omega
    · rw [hnone', List.forall₂_nil_right_iff] at hfunctions
      exact absurd hfunctions hsome
    · rw [he, he']
      exact hfunctions

/-! ## The verdict on the two bodies -/

/-- A body without text has no signals. -/
theorem Signals.ofBody_nil {table : List Builtin} (h : ∀ b ∈ table, isPhrase b.name = true)
    (family : Family) (name : Text) :
    ofBody table family name [] = ⟨[], 0, 0, false, false, false, false, false, false, false⟩ := by
  have hbuiltins : (table.filter fun b => occursIn b.name []) = [] := by
    apply List.filter_eq_nil_iff.2
    intro b hb
    simp [occursIn, ne_nil_of_isPhrase (h b hb)]
  have hcalls : Body.countSelfCalls name [] = 0 := by
    rw [Body.countSelfCalls]
    split <;> rfl
  have htail : Body.isTailRecursive name [] = false := by
    simp [Body.isTailRecursive]
  have hfibonacci : Body.isFibonacciLike name [] = false := by
    simp [Body.isFibonacciLike, hcalls]
  simp only [ofBody, hbuiltins, hcalls, htail, hfibonacci, mk.injEq, true_and, and_true]
  exact ⟨rfl, by decide⟩

/-- The verdict on the lines of a span holds of its report also when there are none. -/
theorem judged_of_bodyLines {span : Span} (h : span.inlineBody = none) (tag : Text)
    (lines : List Text) :
    let s := Signals.ofBody (builtinsOfTag tag) (familyOfTag tag) span.name
      (joinLines (span.bodyLines lines))
    (analyzeSpan tag lines span).growth = s.verdict
      ∧ (analyzeSpan tag lines span).confidence = s.certainty := by
  intro s
  by_cases hempty : span.bodyLines lines = []
  · have hs : s = Signals.ofBody (builtinsOfTag tag) (familyOfTag tag) span.name [] := by
      simp only [s, hempty]
      rfl
    rw [hs, Signals.ofBody_nil (isPhrase_builtin tag), analyzeSpan, estimateSpan,
      Span.body?_eq_none h hempty]
    exact ⟨rfl, rfl⟩
  · rw [analyzeSpan_of_body (Span.body?_of_bodyLines h rfl hempty)]
    exact ⟨Estimate.ofBody_growth _ _ _ _, Estimate.ofBody_confidence _ _ _ _⟩

/-- Without self-calls it makes no difference whether the last one is a tail call. -/
theorem Signals.judged_of_noCalls {s : Signals} (h : s.selfCalls = 0) (tail : Bool) :
    { s with tailRecursive := tail }.verdict = s.verdict
      ∧ { s with tailRecursive := tail }.certainty = s.certainty := by
  simp [verdict, recursionGrowth?, baseGrowth, certainty, plainCertainty, h]

/-- A function without self-calls is judged the same with a blank line in its body. -/
theorem judged_of_gainsBlank {tag : Text} {lines lines' : List Text} {span span' : Span}
    (h : GainsBlank lines lines' span span')
    (hplain : ∀ line ∈ span.bodyLines lines, ∀ c ∈ line, isLineEnd c = false)
    (hplain' : ∀ line ∈ span'.bodyLines lines', ∀ c ∈ line, isLineEnd c = false)
    (hname : isPhrase (Body.callOf span.name) = true)
    (hcount : (span.bodyLines lines).length < Body.loopScanLines)
    (hcalls : ∀ body, span.body? lines = some body → Body.countSelfCalls span.name body = 0) :
    (analyzeSpan tag lines' span').growth = (analyzeSpan tag lines span).growth
      ∧ (analyzeSpan tag lines' span').confidence = (analyzeSpan tag lines span).confidence := by
  cases hinline : span.inlineBody with
  | some body =>
    rw [analyzeSpan_of_body (Span.body?_inline hinline lines),
      analyzeSpan_of_body (Span.body?_inline (h.inlineBody.trans hinline) lines'), h.name]
    exact ⟨rfl, rfl⟩
  | none =>
    obtain ⟨hgrowth, hconfidence⟩ := judged_of_bodyLines hinline tag lines
    obtain ⟨hgrowth', hconfidence'⟩ :=
      judged_of_bodyLines (h.inlineBody.trans hinline) tag lines'
    have hsignals := Signals.ofBody_eq_of_inked (isPhrase_builtin tag) hname
      h.bodyLines.inked_eq (h.bodyLines.loopDepth_eq hplain hplain' hcount (familyOfTag tag))
    have hnone : Body.countSelfCalls span.name (joinLines (span.bodyLines lines)) = 0 := by
      by_cases hempty : span.bodyLines lines = []
      · rw [hempty]
        exact congrArg Signals.selfCalls
          (Signals.ofBody_nil (isPhrase_builtin tag) (familyOfTag tag) span.name)
      · exact hcalls _ (Span.body?_of_bodyLines hinline rfl hempty)
    have hnone' : (Signals.ofBody (builtinsOfTag tag) (familyOfTag tag) span.name
        (joinLines (span'.bodyLines lines'))).selfCalls = 0 :=
      (Body.countSelfCalls_eq_of_inked hname h.bodyLines.inked_eq).symm.trans hnone
    obtain ⟨hverdict, hcertainty⟩ := Signals.judged_of_noCalls hnone' _
    rw [hgrowth, hgrowth', hconfidence, hconfidence', h.name, hsignals]
    exact ⟨hverdict.symm, hcertainty.symm⟩

/-! ## Whole texts -/

/-- A blank line put in anywhere leaves the names of the functions as they are, and the class and
the confidence of each function whose body does not call it.  The function at a place of the one
report is the one at that place of the other. -/
theorem analyze_insert_blank {source source' tag blank : Text} {before after : List Text}
    (hlines : splitLines source = before ++ after)
    (hlines' : splitLines source' = before ++ blank :: after) (hblank : trim blank = [])
    (hsome : 1 ≤ source.length) (hshort : source.length ≤ 100000)
    (hshort' : source'.length ≤ 100000) (hcount : (splitLines source).length ≤ 9999)
    (hbodies : ∀ span ∈ (extract source tag).spans,
      (span.bodyLines (splitLines source)).length ≤ 999) :
    ∃ r r' : Report, analyze source tag = .ok r ∧ analyze source' tag = .ok r'
      ∧ r'.functions.map (·.name) = r.functions.map (·.name)
      ∧ ∀ (i : Nat) (span : Span), (extract source tag).spans[i]? = some span →
          (∀ body, span.body? (splitLines source) = some body →
            Body.countSelfCalls span.name body = 0) →
          ∃ f f' : FunctionReport, r.functions[i]? = some f ∧ r'.functions[i]? = some f'
            ∧ f'.growth = f.growth ∧ f'.confidence = f.confidence := by
  have hne' : source' ≠ [] := by
    rintro rfl
    simp at hlines'
  have hadds : AddsBlank (splitLines source) (splitLines source') := by
    rw [hlines, hlines']
    exact .of_split hblank before after
  have hspans := forall₂_extractLines (familyOfTag tag) hadds (Nat.lt_succ_of_le hcount)
  refine ⟨_, _, analyze_of_short (List.ne_nil_of_length_pos hsome) hshort tag,
    analyze_of_short hne' hshort' tag, ?_, ?_⟩
  · rw [analyzeText_of_short hshort, analyzeText_of_short hshort']
    simp only [Report.ofFunctions, List.map_map]
    apply Eq.symm
    rw [← List.forall₂_eq_eq_eq, List.forall₂_map_left_iff, List.forall₂_map_right_iff]
    exact hspans.imp fun _ _ h => h.name.symm
  · intro i span hspan hcalls
    obtain ⟨hi, rfl⟩ := List.getElem?_eq_some_iff.1 hspan
    have hi' := hi
    rw [extract, hspans.length_eq] at hi'
    have hmem := List.getElem_mem hi
    obtain ⟨hgrowth, hconfidence⟩ := judged_of_gainsBlank (hspans.get hi hi')
      (fun _ => not_isLineEnd_of_mem_bodyLines) (fun _ => not_isLineEnd_of_mem_bodyLines)
      (isPhrase_callOf_of_mem hmem) (Nat.lt_succ_of_le (hbodies _ hmem)) hcalls
    refine ⟨_, _, ?_, ?_, hgrowth, hconfidence⟩
    · rw [analyzeText_of_short hshort, Report.ofFunctions, List.getElem?_map]
      exact congrArg _ (List.getElem?_eq_getElem hi)
    · rw [analyzeText_of_short hshort', Report.ofFunctions, List.getElem?_map]
      exact congrArg _ (List.getElem?_eq_getElem hi')

/-- Under the header of a function without a body, which has a blank one then. -/
theorem analyze_insert_blank_body :
    let source := "def f(a):\n  for x in a:\n    g(x)\ndef h(a):".toList
    let source' := "def f(a):\n  for x in a:\n    g(x)\ndef h(a):\n\t\n".toList
    let spans := (extract source "py".toList).spans
    spans.length = 2
      ∧ ∃ r r' : Report, analyze source "py".toList = .ok r ∧ analyze source' "py".toList = .ok r'
        ∧ r'.functions.map (·.name) = r.functions.map (·.name)
        ∧ ∀ (i : Nat) (span : Span), spans[i]? = some span →
            ∃ f f' : FunctionReport, r.functions[i]? = some f ∧ r'.functions[i]? = some f'
              ∧ f'.growth = f.growth ∧ f'.confidence = f.confidence := by
  intro source source' spans
  have hlines' : splitLines source' = splitLines source ++ ["\t".toList] := by decide +kernel
  have hbodies : ∀ span ∈ spans, (span.bodyLines (splitLines source)).length ≤ 999 := by
    decide +kernel
  have hcalls : ∀ span ∈ spans,
      (span.body? (splitLines source)).all (Body.countSelfCalls span.name · == 0) = true := by
    decide +kernel
  obtain ⟨r, r', h, h', hnames, hjudged⟩ :=
    analyze_insert_blank (List.append_nil (splitLines source)).symm hlines' (by decide)
      (by decide +kernel) (by decide +kernel) (by decide +kernel) (by decide +kernel) hbodies
  refine ⟨by decide +kernel, r, r', h, h', hnames, ?_⟩
  intro i span hspan
  refine hjudged i span hspan ?_
  intro body hbody
  simpa [hbody] using hcalls span (List.mem_of_getElem? hspan)

end GrowthEstimate
