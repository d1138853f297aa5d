import GrowthEstimate.Proofs.Composition
import GrowthEstimate.Proofs.LoopCount
import GrowthEstimate.Proofs.Occurrences

/-!
# Decorators of indented functions

A decorator stands in front of the header of its function, and the body that is judged begins
behind the header.  So of the words that tell of dynamic programming only those in the lines behind
the header count, and the two that are decorators are never found on the function they decorate.

* `isDynamicProgramming_joinLines`: a word in a body is a word in one of its lines;
* `exists_span_of_header`: every header that can be read has its report;
* `dynamicProgramming_of_header`: when dynamic programming is noted of a function.
-/

namespace GrowthEstimate

open Text Header

theorem isDynamicProgramming_joinLines (lines : List Text) :
    Body.isDynamicProgramming (joinLines lines) = true ↔
      ∃ line ∈ lines, Body.isDynamicProgramming line = true := by
  have hphrases : ∀ word ∈ Body.dynamicProgrammingWords, isPhrase word = true := by decide
  simp only [Body.isDynamicProgramming, anyOccursIn, List.any_eq_true, lowercase_joinLines]
  constructor
  · rintro ⟨word, hword, hoccurs⟩
    obtain ⟨lowered, hlowered, hline⟩ :=
      (occursIn_joinLines_iff (hphrases word hword)).1 hoccurs
    obtain ⟨line, hmem, rfl⟩ := List.mem_map.1 hlowered
    exact ⟨line, hmem, word, hword, hline⟩
  · rintro ⟨line, hmem, word, hword, hline⟩
    exact ⟨word, hword, (occursIn_joinLines_iff (hphrases word hword)).2
      ⟨lowercase line, List.mem_map_of_mem hmem, hline⟩⟩

/-! ## The note on one span -/

theorem Signals.dynamicProgramming_mem_notes {s : Signals} :
    Note.dynamicProgramming ∈ s.notes ↔ s.dynamicProgramming = true := by
  have hloops : Note.dynamicProgramming ∉ s.loopNotes := by
    unfold loopNotes
    repeat' split
    all_goals simp
  have hrecursion : Note.dynamicProgramming ∉ s.recursionNotes := by
    unfold recursionNotes
    repeat' split
    all_goals simp
  simp [notes, hloops, hrecursion]

section

variable {tag : Text} {lines : List Text} {span : Span} {body : Text}

theorem dynamicProgramming_of_body (h : span.body? lines = some body) :
    Note.dynamicProgramming.text ∈ (analyzeSpan tag lines span).rationale ↔
      Body.isDynamicProgramming body = true :=
  (text_mem_rationale_iff h).trans Signals.dynamicProgramming_mem_notes

theorem confidence_of_dynamicProgramming (h : span.body? lines = some body)
    (hdynamic : Body.isDynamicProgramming body = true)
    (hfactorial : Body.isFactorial body = false) :
    (analyzeSpan tag lines span).confidence = 0.6 := by
  have hdynamic' : (Signals.ofBody (builtinsOfTag tag) (familyOfTag tag) span.name
      body).dynamicProgramming = true := hdynamic
  have hfactorial' : (Signals.ofBody (builtinsOfTag tag) (familyOfTag tag) span.name
      body).factorial = false := hfactorial
  rw [analyzeSpan_of_body h, Span.report]
  simp only [Estimate.ofBody_confidence, Signals.certainty, hdynamic', hfactorial', if_true,
    Bool.false_eq_true, if_false]

end

/-! ## The function of a header -/

/-- Every header that can be read has a report, on the lines behind it that belong to it. -/
theorem exists_span_of_header {source tag : Text} (hpython : Language.ofTag? tag = some .python)
    (hlength : source.length ≤ 100000) (hlines : (splitLines source).length ≤ 10000)
    {before : List Text} {header : Text} {rest : List Text} {name : Text}
    (hsplit : splitLines source = before ++ header :: rest)
    (hheader : indentedName? (trim header) = some name) :
    let body := rest.takeWhile fun line => !endsIndented (indentOf header) line
    ∃ span, span = Span.onLines name (before.length + 2) (before.length + 1 + body.length)
      ∧ span.bodyLines (splitLines source) = body
      ∧ ∃ report, analyze source tag = .ok report
        ∧ analyzeSpan tag (splitLines source) span ∈ report.functions := by
  intro body
  have hfamily : familyOfTag tag = .indentation := by
    rw [familyOfTag, hpython]
    rfl
  have hspan : Span.onLines name (before.length + 2) (before.length + 1 + body.length) ∈
      functionSpans (familyOfTag tag) (splitLines source) := by
    rw [hfamily, functionSpans_eq]
    refine mem_spansFrom_iff.2 ⟨before, header, rest, hsplit, ?_⟩
    rw [Family.spanAt, indentedSpanAt, hheader, Nat.zero_add]
    rfl
  refine ⟨_, rfl, ?_, _, analyze_of_functions hlength hlines (List.ne_nil_of_mem hspan),
    List.mem_map_of_mem hspan⟩
  rw [hsplit, Span.bodyLines_onLines]
  exact take_indentedExtent (indentOf header) rest

/-- In a Python text, dynamic programming is noted of a function just when one of its words occurs
in a line behind the header, whatever stands in front of it; and the confidence is then the cap,
unless the body is factorial. -/
theorem dynamicProgramming_of_header (source tag : Text)
    (hpython : Language.ofTag? tag = some .python) (hlength : source.length ≤ 100000)
    (hlines : (splitLines source).length ≤ 10000) (before : List Text) (header : Text)
    (rest : List Text) (name : Text) (hsplit : splitLines source = before ++ header :: rest)
    (hheader : indentedName? (trim header) = some name) :
    let body := rest.takeWhile fun line => !endsIndented (indentOf header) line
    ∃ report, analyze source tag = .ok report ∧ ∃ f ∈ report.functions,
      f.name = name ∧ f.first = (before.length + 2 : Nat)
        ∧ f.last = (before.length + 1 + body.length : Nat)
        ∧ (Note.dynamicProgramming.text ∈ f.rationale ↔
            ∃ line ∈ body, ∃ word ∈ ["memo", "cache", "dp[", "table[", "@lru_cache", "@cache"],
              occursIn word.toList (lowercase line) = true)
        ∧ (Note.dynamicProgramming.text ∈ f.rationale → Body.isFactorial (joinLines body) = false →
            f.confidence = 0.6) := by
  intro body
  have hwords : ∀ line : Text, Body.isDynamicProgramming line = true ↔
      ∃ word ∈ ["memo", "cache", "dp[", "table[", "@lru_cache", "@cache"],
        occursIn word.toList (lowercase line) = true := by
    intro line
    simp [Body.isDynamicProgramming, anyOccursIn, Body.dynamicProgrammingWords]
  obtain ⟨span, rfl, hbody, report, hreport, hmem⟩ :=
    exists_span_of_header hpython hlength hlines hsplit hheader
  refine ⟨report, hreport, _, hmem, rfl, rfl, rfl, ?_⟩
  simp only [← hwords]
  by_cases hempty : body = []
  · have hunread := Span.body?_eq_none rfl (hbody.trans hempty)
    have hnone : Note.dynamicProgramming.text ∉ [Note.unreadableBody.text] := by decide
    rw [(rationale_eq_unreadable_iff _ _ _).2 hunread]
    simp [hnone, hempty]
  · have hread := Span.body?_of_bodyLines rfl hbody hempty
    rw [dynamicProgramming_of_body hread, ← isDynamicProgramming_joinLines]
    exact ⟨Iff.rfl, confidence_of_dynamicProgramming hread⟩

/-- A function that keeps what it has found, behind a decorator. -/
theorem dynamicProgramming_of_header_memo :
    let source := "@wraps\ndef f(n):\n    memo[n] = n\n    return memo[n]\n".toList
    ∃ before header rest name, Language.ofTag? "py".toList = some .python
      ∧ source.length ≤ 100000 ∧ (splitLines source).length ≤ 10000
      ∧ splitLines source = before ++ header :: rest
      ∧ indentedName? (trim header) = some name
      ∧ ∃ report, analyze source "py".toList = .ok report ∧ ∃ f ∈ report.functions,
        f.name = "f".toList ∧ Note.dynamicProgramming.text ∈ f.rationale ∧ f.confidence = 0.6 := by
  intro source
  have hpython : Language.ofTag? "py".toList = some .python := by decide +kernel
  have hlength : source.length ≤ 100000 := by decide +kernel
  have hlines : (splitLines source).length ≤ 10000 := by decide +kernel
  have hsplit : splitLines source = ["@wraps".toList] ++ "def f(n):".toList ::
      ["    memo[n] = n".toList, "    return memo[n]".toList] := by decide +kernel
  have hheader : indentedName? (trim "def f(n):".toList) = some "f".toList := by decide +kernel
  obtain ⟨report, hreport, f, hf, hname, -, -, hnote, hconfidence⟩ :=
    dynamicProgramming_of_header source _ hpython hlength hlines _ _ _ _ hsplit hheader
  have hnoted : Note.dynamicProgramming.text ∈ f.rationale := hnote.2 (by decide +kernel)
  exact ⟨_, _, _, _, hpython, hlength, hlines, hsplit, hheader, report, hreport, f, hf, hname,
    hnoted, hconfidence hnoted (by decide +kernel)⟩

/-- The decorator that caches a function is not seen with it. -/
theorem decorator_unseen :
    let source := "@lru_cache\ndef fib(n):\n    return fib(n-1) + fib(n-2)\n".toList
    let span := Span.onLines "fib".toList 3 3
    Body.isDynamicProgramming "@lru_cache".toList = true
      ∧ ((analyze source "python".toList).toOption.map fun r =>
          r.functions.map fun f => (f.name, f.first, f.last, f.rationale)) =
        some [("fib".toList, 3, 3, [Note.fibonacciLike.text])]
      ∧ (analyzeSpan "python".toList (splitLines source) span).confidence = 0.9 := by
  decide +kernel

end GrowthEstimate
