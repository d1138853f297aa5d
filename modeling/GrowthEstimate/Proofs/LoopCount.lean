import GrowthEstimate.Analysis.Session
import GrowthEstimate.Proofs.HeaderSpans
import GrowthEstimate.Proofs.LineSplitting
import GrowthEstimate.Proofs.SpanBody
import GrowthEstimate.Proofs.SpanOrder

/-!
# Loops in an indented function

A line at the margin closes every loop, but the lines of an indented function stand deeper than its
header.  So no loop of such a function is ever closed: loops that follow each other count like
loops inside each other, and the depth is the number of lines that start a loop.

* `loopDepth_eq`: the depth of a body, from any lines that it is written on;
* `afterLines_level`: lines off the margin only ever open loops;
* `head_isBlank_of_mem_bodyLines`: the lines of an indented function stand off the margin;
* `loopDepth_eq_count`: the depth of every function of a text.
-/

namespace GrowthEstimate

open Text

namespace Body

/-! ## Depth by lines -/

theorem Nesting.afterLines_append (family : Family) (n : Nesting) (lines more : List Text) :
    n.afterLines family (lines ++ more) = (n.afterLines family lines).afterLines family more :=
  List.foldl_append

theorem Nesting.after_of_skipped {line : Text} (h : isSkipped (trim line) = true)
    (family : Family) (n : Nesting) : n.after family line = n := by
  rw [after, if_pos h]

/-- An empty line behind the last line end of a body is not looked at, and would change nothing. -/
theorem loopDepth_eq (family : Family) {body : Text} {lines : List Text}
    (h : body.HasLines lines) :
    loopDepth family body =
      min (Nesting.outside.afterLines family (lines.take loopScanLines)).deepest deepestLoop := by
  rcases h with rfl | rfl
  · rfl
  · have hempty : ∀ (n : Nesting) (count : Nat),
        n.afterLines family (([[]] : List Text).take count) = n := by
      intro n count
      cases count with
      | zero => rfl
      | succ count =>
        have hskip : isSkipped (trim []) = true := rfl
        rw [List.take_succ_cons, List.take_nil]
        exact Nesting.after_of_skipped hskip family n
    rw [List.take_append, Nesting.afterLines_append, hempty]
    rfl

/-! ## Lines off the margin -/

theorem head?_of_startsWith {token s : Text} (hne : token ≠ []) (h : startsWith token s = true) :
    s.head? = token.head? := by
  obtain ⟨rest, rfl⟩ := List.isPrefixOf_iff_prefix.1 h
  cases token with
  | nil => exact absurd rfl hne
  | cons t token => rfl

/-- A comment does not start with the word of a loop. -/
theorem isLoopStart_of_skipped {line : Text} (h : isSkipped line = true) :
    isLoopStart .indentation line = false := by
  have words : ∀ word ∈ indentedLoopWords,
      word ≠ [] ∧ word.head? ∉ [none, some '/', some '#'] := by decide
  have hhead : line.head? ∈ [none, some '/', some '#'] := by
    simp only [isSkipped, Bool.or_eq_true, List.isEmpty_iff] at h
    rcases h with (rfl | h) | h
    · simp
    · rw [head?_of_startsWith (by decide) h]
      decide
    · rw [head?_of_startsWith (by decide) h]
      decide
  cases hloop : isLoopStart .indentation line with
  | false => rfl
  | true =>
    obtain ⟨word, hword, hstarts⟩ := List.any_eq_true.1 hloop
    obtain ⟨hne, hother⟩ := words word hword
    rw [head?_of_startsWith hne hstarts] at hhead
    exact absurd hhead hother

/-- Off the margin a line closes nothing. -/
theorem openBehind_of_head_isBlank {line : Text} (h : line.head?.any isBlank = true)
    (depth : Nat) : openBehind .indentation depth line = depth := by
  rw [openBehind, if_pos h]

theorem after_level {line : Text}
    (h : isSkipped (trim line) = false → line.head?.any isBlank = true) (level : Nat) :
    (Nesting.mk level level).after .indentation line =
      if isLoopStart .indentation (trim line) then ⟨level + 1, level + 1⟩
      else ⟨level, level⟩ := by
  rw [Nesting.after]
  cases hskip : isSkipped (trim line) with
  | true => simp [isLoopStart_of_skipped hskip]
  | false =>
    cases isLoopStart .indentation (trim line) <;>
      simp [openBehind_of_head_isBlank (h hskip)]

/-- The depth and the greatest depth stay the same, and are the loops started so far. -/
theorem afterLines_level {lines : List Text}
    (h : ∀ line ∈ lines, isSkipped (trim line) = false → line.head?.any isBlank = true)
    (level : Nat) :
    (Nesting.mk level level).afterLines .indentation lines =
      ⟨level + lines.countP fun line => isLoopStart .indentation (trim line),
        level + lines.countP fun line => isLoopStart .indentation (trim line)⟩ := by
  induction lines generalizing level with
  | nil => rfl
  | cons line rest ih =>
    have hrest := ih fun l hl => h l (by simp [hl])
    rw [Nesting.afterLines, List.foldl_cons, after_level (h line (by simp)), List.countP_cons]
    cases isLoopStart .indentation (trim line) with
    | false => exact hrest level
    | true =>
      simp only [if_true, ← Nat.add_assoc, Nat.add_right_comm level _ 1]
      exact hrest (level + 1)

end Body

/-! ## The lines of an indented function -/

theorem head_isBlank_of_indentOf_pos {line : Text} (h : 0 < indentOf line) :
    line.head?.any isBlank = true := by
  cases line with
  | nil => cases h
  | cons c s =>
    cases hc : isBlank c with
    | true => simp [hc]
    | false => simp [indentOf, hc] at h

theorem exists_header_of_mem_indented {lines : List Text} {span : Span}
    (h : span ∈ functionSpans .indentation lines) :
    ∃ before header rest name, lines = before ++ header :: rest ∧ span =
      Span.onLines name (before.length + 2)
        (before.length + 1 + indentedExtent (indentOf header) rest) := by
  rw [functionSpans_eq] at h
  obtain ⟨before, header, rest, hsplit, hspan⟩ := mem_spansFrom_iff.1 h
  obtain ⟨name, -, rfl⟩ := Option.map_eq_some_iff.1 hspan
  rw [Nat.zero_add]
  exact ⟨before, header, rest, name, hsplit, rfl⟩

theorem inlineBody_of_indented {lines : List Text} {span : Span}
    (h : span ∈ functionSpans .indentation lines) : span.inlineBody = none := by
  obtain ⟨before, header, rest, name, -, rfl⟩ := exists_header_of_mem_indented h
  rfl

/-- Behind the header of an indented function stand its lines, as far as they are blank or deeper
than the header. -/
theorem head_isBlank_of_mem_bodyLines {lines : List Text} {span : Span}
    (h : span ∈ functionSpans .indentation lines) {line : Text}
    (hline : line ∈ span.bodyLines lines) (hblank : (trim line).isEmpty = false) :
    line.head?.any isBlank = true := by
  obtain ⟨before, header, rest, name, rfl, rfl⟩ := exists_header_of_mem_indented h
  rw [Span.bodyLines_onLines, take_indentedExtent] at hline
  have within : (!endsIndented (indentOf header) line) = true :=
    List.all_eq_true.1 List.all_takeWhile line hline
  simp only [endsIndented, hblank, Bool.not_false, Bool.true_and, Bool.not_eq_true',
    Bool.or_eq_false_iff, decide_eq_false_iff_not] at within
  exact head_isBlank_of_indentOf_pos (by omega)

open Body in
/-- In a Python text with functions, the depth found in each of them is the number of lines that
start a loop, among the first 1000 of its body and up to 10.  No line that is looked at closes a
loop. -/
theorem loopDepth_eq_count (source tag : Text) (hpython : Language.ofTag? tag = some .python)
    (hlines : (splitLines source).length ≤ 10000) (hdetected : (extract source tag).detected = true)
    {span : Span} (hspan : span ∈ (extract source tag).spans) :
    let lines := splitLines source
    let body := span.bodyLines lines
    let loops := (body.take 1000).countP fun line =>
      ["for ", "while ", "async for "].any fun word => startsWith word.toList (trim line)
    (Session.look tag lines ⟨span, .none⟩).2.findings.loopDepth = (min 10 loops : Nat)
      ∧ ∀ line ∈ body, isSkipped (trim line) = false →
        ∀ depth, openBehind .indentation depth line = depth := by
  intro lines body loops
  have hfamily : familyOfTag tag = .indentation := by
    rw [familyOfTag, hpython]
    rfl
  have hfunction : span ∈ functionSpans .indentation lines := by
    rw [extract, hfamily] at hspan hdetected
    rwa [spans_of_functions hlines hdetected] at hspan
  have hinline := inlineBody_of_indented hfunction
  have hmargin : ∀ line ∈ body, isSkipped (trim line) = false →
      line.head?.any isBlank = true := by
    intro line hline hskip
    apply head_isBlank_of_mem_bodyLines hfunction hline
    simp only [isSkipped, Bool.or_eq_false_iff] at hskip
    exact hskip.1.1
  refine ⟨?_, fun line hline hskip => openBehind_of_head_isBlank (hmargin line hline hskip)⟩
  by_cases hempty : body = []
  · have hbody : span.body? lines = none := by simp [Span.body?, hinline, body, hempty]
    have hloops : loops = 0 := by simp [loops, hempty]
    simp only [Session.look, hbody, hloops]
    rfl
  · have hbody : span.body? lines = some (joinLines body) :=
      (Span.body?_eq_some_iff hinline).2 ⟨hempty, rfl⟩
    have hplain : ∀ line ∈ body, ∀ c ∈ line, isLineEnd c = false := by
      intro line hline
      rw [show body = span.bodyLines lines from rfl, Span.bodyLines_eq] at hline
      exact not_isLineEnd_of_mem_splitLines (List.mem_of_mem_take (List.mem_of_mem_drop hline))
    have hdepth : loopDepth .indentation (joinLines body) = min 10 loops := by
      rw [loopDepth_eq .indentation (hasLines_joinLines hplain), Nesting.outside,
        afterLines_level fun line hline => hmargin line (List.mem_of_mem_take hline),
        Nat.zero_add, Nat.min_comm]
      rfl
    simp only [Session.look, hbody, Signals.findings, Signals.ofBody, hfamily, hdepth]

/-- Two loops behind each other and a comment between them. -/
theorem loopDepth_eq_count_sequence :
    let source := "def f(a):\n  for x in a:\n    g(x)\n  # for all\n  while a:\n    a.pop()\n".toList
    let span := Span.onLines "f".toList 2 6
    Language.ofTag? "py".toList = some .python ∧ (splitLines source).length ≤ 10000
      ∧ (extract source "py".toList).detected = true
      ∧ span ∈ (extract source "py".toList).spans
      ∧ (Session.look "py".toList (splitLines source) ⟨span, .none⟩).2.findings.loopDepth = 2 := by
  intro source span
  have hpython : Language.ofTag? "py".toList = some .python := by decide +kernel
  have hlines : (splitLines source).length ≤ 10000 := by decide +kernel
  have hdetected : (extract source "py".toList).detected = true := by decide +kernel
  have hspan : span ∈ (extract source "py".toList).spans := by decide +kernel
  obtain ⟨hdepth, -⟩ := loopDepth_eq_count source "py".toList hpython hlines hdetected hspan
  refine ⟨hpython, hlines, hdetected, hspan, hdepth.trans ?_⟩
  decide +kernel

end GrowthEstimate
