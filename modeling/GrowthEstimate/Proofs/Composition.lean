import GrowthEstimate.Proofs.LineSplitting
import GrowthEstimate.Proofs.Outcomes
import Mathlib.Data.List.TakeWhile

/-!
# Analysis of a text in two parts

When the second part of a text starts anew, no function of the first part reaches into it.  The
functions of the whole text are then those of the first part, and those of the second part with
their lines counted on.

* `leavesOpen_eq_false_iff`: when no function of the first part is open at its end;
* `spansFrom_append`: the spans of the two parts;
* `spansFrom_shift`: counting on moves every span;
* `analyze_append`: the report on the whole text.
-/

namespace GrowthEstimate

open Text Header

/-! ## Functions that are still open -/

/-- Whether a function with the given balance of braces is open behind the lines: its braces are
not closed in them, and no header is among them. -/
def staysOpen (opener : Text → Option Text) : (balance : Int) → List Text → Bool
  | _, [] => true
  | balance, line :: rest =>
    (opener (trim line)).isNone && 0 < balance + braceBalance line
      && staysOpen opener (balance + braceBalance line) rest

/-- Whether one of the headers in the lines opens a function that is open behind them. -/
def leavesOpen (opener : Text → Option Text) : List Text → Bool
  | [] => false
  | line :: rest =>
    ((opener (trim line)).isSome && 0 < braceBalance line
        && staysOpen opener (braceBalance line) rest)
      || leavesOpen opener rest

/-- Whether no function of the lines reaches into those behind them.  In an indented language the
first line behind them starts at the margin.  Elsewhere it is a header, or no function is open in
front of it. -/
def Family.startsAnew (family : Family) (lines behind : List Text) : Bool :=
  match family with
  | .indentation => behind.head?.any fun line => line.head?.any fun c => !isBlank c
  | .brace | .script | .generic =>
    !leavesOpen family.nameIn? lines
      || behind.head?.any fun line => (family.nameIn? (trim line)).isSome

/-- A line at the margin is not blank, so it ends every indented function. -/
theorem endsIndented_of_margin {line : Text} (h : line.head?.any fun c => !isBlank c)
    (indent : Nat) : endsIndented indent line = true := by
  cases line with
  | nil => cases h
  | cons c s =>
    have hc : isBlank c = false := by simpa using h
    have hindent : indentOf (c :: s) = 0 := by simp [indentOf, hc]
    have hstart : trimStart (c :: s) = c :: s := by simp [trimStart, hc]
    have hne : trim (c :: s) ≠ [] := by
      intro hnil
      rw [trim, hstart, trimEnd, dropEndWhile, List.reverse_eq_nil_iff,
        List.dropWhile_eq_nil_iff] at hnil
      have hblank := hnil c (by simp)
      rw [hc] at hblank
      cases hblank
    simp [endsIndented, hindent, hne]

theorem indentedExtent_append {behind : List Text}
    (h : behind.head?.any fun line => line.head?.any fun c => !isBlank c) (indent : Nat)
    (lines : List Text) :
    indentedExtent indent (lines ++ behind) = indentedExtent indent lines := by
  induction lines with
  | nil =>
    cases behind with
    | nil => cases h
    | cons line rest =>
      have hends : endsIndented indent line = true := endsIndented_of_margin (by simpa using h) _
      rw [List.nil_append, indentedExtent_cons, hends]
      rfl
  | cons line rest ih => rw [List.cons_append, indentedExtent_cons, indentedExtent_cons, ih]

theorem bracedExtent_append_of_header {opener : Text → Option Text} {behind : List Text}
    (h : behind.head?.any fun line => (opener (trim line)).isSome) (balance : Int)
    (lines : List Text) :
    bracedExtent opener balance (lines ++ behind) = bracedExtent opener balance lines := by
  induction lines generalizing balance with
  | nil =>
    cases behind with
    | nil => cases h
    | cons line rest =>
      have hheader : (opener (trim line)).isSome = true := by simpa using h
      simp only [List.nil_append, bracedExtent, hheader, if_true]
  | cons line rest ih => rw [List.cons_append, bracedExtent, bracedExtent, ih]

theorem bracedExtent_append_of_closed {opener : Text → Option Text} {balance : Int}
    {lines : List Text} (h : staysOpen opener balance lines = false) (behind : List Text) :
    bracedExtent opener balance (lines ++ behind) = bracedExtent opener balance lines := by
  induction lines generalizing balance with
  | nil => cases h
  | cons line rest ih =>
    rw [List.cons_append, bracedExtent, bracedExtent]
    by_cases hheader : (opener (trim line)).isSome = true
    · rw [if_pos hheader, if_pos hheader]
    · rw [if_neg hheader, if_neg hheader]
      by_cases hclosed : balance + braceBalance line ≤ 0
      · rw [if_pos hclosed, if_pos hclosed]
      · rw [if_neg hclosed, if_neg hclosed]
        have hopen : 0 < balance + braceBalance line := by omega
        have hnone : (opener (trim line)).isNone = true := by simpa using hheader
        rw [staysOpen, hnone, decide_eq_true hopen, Bool.true_and, Bool.true_and] at h
        rw [ih h]

theorem staysOpen_eq_false {opener : Text → Option Text} {before : List Text} {line : Text}
    {rest : List Text} (h : leavesOpen opener (before ++ line :: rest) = false)
    (hheader : (opener (trim line)).isSome = true) (hopen : 0 < braceBalance line) :
    staysOpen opener (braceBalance line) rest = false := by
  induction before with
  | nil =>
    rw [List.nil_append, leavesOpen, hheader, decide_eq_true hopen, Bool.or_eq_false_iff] at h
    exact h.1
  | cons first before ih =>
    rw [List.cons_append, leavesOpen, Bool.or_eq_false_iff] at h
    exact ih h.2

section

variable {opener : Text → Option Text} {line : Text}

theorem bracedExtent_append_of_open (hplain : opener (trim line) = none) {balance : Int}
    {lines : List Text} (h : staysOpen opener balance lines = true) :
    bracedExtent opener balance (lines ++ [line]) = bracedExtent opener balance lines + 1 := by
  induction lines generalizing balance with
  | nil => simp [bracedExtent, hplain]
  | cons first rest ih =>
    rw [staysOpen, Bool.and_eq_true, Bool.and_eq_true, decide_eq_true_eq] at h
    obtain ⟨⟨hnone, hopen⟩, hrest⟩ := h
    have hheader : ¬ (opener (trim first)).isSome = true := by simpa using hnone
    have hbalance : ¬ balance + braceBalance first ≤ 0 := by omega
    rw [List.cons_append, bracedExtent, bracedExtent, if_neg hheader, if_neg hheader,
      if_neg hbalance, if_neg hbalance, ih hrest]

/-- The span of a header grows by the line put behind just when it is open there. -/
theorem bracedSpanAt_append_eq_iff (hplain : opener (trim line) = none) (read : Nat)
    (header : Text) (rest : List Text) :
    bracedSpanAt opener read header (rest ++ [line]) = bracedSpanAt opener read header rest ↔
      ((opener (trim header)).isSome && 0 < braceBalance header
        && staysOpen opener (braceBalance header) rest) = false := by
  cases hname : opener (trim header) with
  | none => simp [bracedSpanAt, hname]
  | some name =>
    by_cases hclosed : braceBalance header ≤ 0
    · have hnot : ¬ 0 < braceBalance header := by omega
      simp [bracedSpanAt, hname, hclosed, hnot]
    · have hopen : 0 < braceBalance header := by omega
      cases hstays : staysOpen opener (braceBalance header) rest with
      | false => simp [bracedSpanAt, hname, bracedExtent_append_of_closed hstays]
      | true =>
        have hmore := bracedExtent_append_of_open hplain hstays
        have hlonger : ∀ last : Nat, Span.onLines name (read + 2) (read + 1 + (last + 1)) ≠
            Span.onLines name (read + 2) (read + 1 + last) := by
          intro last heq
          have hlast := congrArg Span.last heq
          simp only [Span.onLines] at hlast
          omega
        simp [bracedSpanAt, hname, hclosed, hopen, hmore, hlonger]

/-- No function is open behind the lines just when one line more, which is no header, leaves the
spans as they are. -/
theorem leavesOpen_eq_false_iff (hplain : opener (trim line) = none) (read : Nat)
    (lines : List Text) :
    leavesOpen opener lines = false ↔
      bracedSpans opener read none (lines ++ [line]) = bracedSpans opener read none lines := by
  have hspans : ∀ (read : Nat) (lines : List Text), bracedSpans opener read none lines =
      spansFrom (bracedSpanAt opener) read lines := fun read => bracedSpans_eq opener read none
  rw [hspans, hspans]
  induction lines generalizing read with
  | nil => simp [leavesOpen, spansFrom, bracedSpanAt, hplain]
  | cons first rest ih =>
    have hapart : spansFrom (bracedSpanAt opener) read (first :: rest ++ [line]) =
        spansFrom (bracedSpanAt opener) read (first :: rest) ↔
        bracedSpanAt opener read first (rest ++ [line]) = bracedSpanAt opener read first rest
          ∧ spansFrom (bracedSpanAt opener) (read + 1) (rest ++ [line]) =
            spansFrom (bracedSpanAt opener) (read + 1) rest := by
      cases hname : opener (trim first) <;> simp [spansFrom, bracedSpanAt, hname]
    rw [hapart, bracedSpanAt_append_eq_iff hplain, leavesOpen, Bool.or_eq_false_iff]
    exact and_congr_right fun _ => ih (read + 1)

end

/-! ## The spans of two parts -/

/-- The span of a header in lines behind which others start anew depends on those lines alone. -/
theorem spanAt_append {family : Family} {before : List Text} {line : Text} {rest behind : List Text}
    (h : family.startsAnew (before ++ line :: rest) behind = true) (read : Nat) :
    family.spanAt read line (rest ++ behind) = family.spanAt read line rest := by
  have braced : ∀ opener : Text → Option Text,
      (!leavesOpen opener (before ++ line :: rest)
        || behind.head?.any fun line => (opener (trim line)).isSome) = true →
      bracedSpanAt opener read line (rest ++ behind) = bracedSpanAt opener read line rest := by
    intro opener hanew
    cases hname : opener (trim line) with
    | none => simp [bracedSpanAt, hname]
    | some name =>
      by_cases hclosed : braceBalance line ≤ 0
      · simp [bracedSpanAt, hname, hclosed]
      · have hextent : bracedExtent opener (braceBalance line) (rest ++ behind) =
            bracedExtent opener (braceBalance line) rest := by
          rcases Bool.or_eq_true_iff.1 hanew with hnone | hfirst
          · apply bracedExtent_append_of_closed
            apply staysOpen_eq_false (by simpa using hnone)
            · rw [hname]
              rfl
            · omega
          · exact bracedExtent_append_of_header hfirst _ _
        simp [bracedSpanAt, hname, hclosed, hextent]
  cases family with
  | indentation =>
    have hextent := indentedExtent_append h (indentOf line) rest
    simp [Family.spanAt, indentedSpanAt, hextent]
  | brace | script | generic => exact braced _ h

theorem spansFrom_append {family : Family} {lines behind : List Text}
    (h : family.startsAnew lines behind = true) (read : Nat) :
    spansFrom family.spanAt read (lines ++ behind) =
      spansFrom family.spanAt read lines
        ++ spansFrom family.spanAt (read + lines.length) behind := by
  -- the lines in front stay in view, because whether a function is open depends on all of them
  have aux : ∀ (rest before : List Text) (read : Nat),
      family.startsAnew (before ++ rest) behind = true →
      spansFrom family.spanAt read (rest ++ behind) =
        spansFrom family.spanAt read rest
          ++ spansFrom family.spanAt (read + rest.length) behind := by
    intro rest
    induction rest with
    | nil =>
      intro before read _
      rfl
    | cons line rest ih =>
      intro before read hanew
      have hnext : family.startsAnew ((before ++ [line]) ++ rest) behind = true := by
        simpa using hanew
      have hlength : read + (line :: rest).length = read + 1 + rest.length := by
        rw [List.length_cons]
        omega
      rw [List.cons_append, spansFrom, spansFrom, spanAt_append hanew, ih _ _ hnext, hlength,
        List.append_assoc]
  exact aux lines [] read h

theorem onLines_shift (name : Text) (first last count : Nat) :
    Span.onLines name (first + count) (last + count) =
      (Span.onLines name first last).shift count := by
  simp [Span.onLines, Span.shift]

theorem oneLineSpan_shift (name line : Text) (number count : Nat) :
    oneLineSpan name line (number + count) = (oneLineSpan name line number).shift count := by
  unfold oneLineSpan
  simp only
  split
  · rw [← onLines_shift]
    congr 1
    omega
  · rw [onLines_shift]
    rfl

theorem spanAt_shift (family : Family) (read count : Nat) (line : Text) (rest : List Text) :
    family.spanAt (read + count) line rest =
      (family.spanAt read line rest).map (·.shift count) := by
  have indented : indentedSpanAt (read + count) line rest =
      (indentedSpanAt read line rest).map (·.shift count) := by
    cases hname : indentedName? (trim line) with
    | none => simp [indentedSpanAt, hname]
    | some name =>
      simp only [indentedSpanAt, hname, Option.map_some, ← onLines_shift]
      congr 2 <;> omega
  have braced : ∀ opener : Text → Option Text, bracedSpanAt opener (read + count) line rest =
      (bracedSpanAt opener read line rest).map (·.shift count) := by
    intro opener
    cases hname : opener (trim line) with
    | none => simp [bracedSpanAt, hname]
    | some name =>
      by_cases hclosed : braceBalance line ≤ 0
      · simp only [bracedSpanAt, hname, Option.map_some, if_pos hclosed, ← oneLineSpan_shift]
        congr 2
        omega
      · simp only [bracedSpanAt, hname, Option.map_some, if_neg hclosed, ← onLines_shift]
        congr 2 <;> omega
  cases family with
  | indentation => exact indented
  | brace | script | generic => exact braced _

theorem spansFrom_shift (family : Family) (read count : Nat) (lines : List Text) :
    spansFrom family.spanAt (read + count) lines =
      (spansFrom family.spanAt read lines).map (·.shift count) := by
  induction lines generalizing read with
  | nil => rfl
  | cons line rest ih =>
    have hnext : read + count + 1 = read + 1 + count := by omega
    rw [spansFrom, spansFrom, spanAt_shift, hnext, ih, List.map_append]
    cases family.spanAt read line rest <;> rfl

theorem functionSpans_append {family : Family} {lines behind : List Text}
    (h : family.startsAnew lines behind = true) :
    functionSpans family (lines ++ behind) =
      functionSpans family lines ++ (functionSpans family behind).map (·.shift lines.length) := by
  rw [functionSpans_eq, functionSpans_eq, functionSpans_eq, spansFrom_append h, ← spansFrom_shift]

/-! ## The report on two parts -/

/-- The report on the same function when `count` lines are put in front of the text. -/
def FunctionReport.shift (count : Nat) (f : FunctionReport) : FunctionReport :=
  { f with first := f.first + count, last := f.last + count }

theorem analyzeSpan_append_left {lines : List Text} {span : Span} (h : span.last ≤ lines.length)
    (tag : Text) (behind : List Text) :
    analyzeSpan tag (lines ++ behind) span = analyzeSpan tag lines span := by
  rw [analyzeSpan, analyzeSpan, estimateSpan, estimateSpan, Span.body?_append_left h]

theorem analyzeSpan_shift {span : Span} (hfirst : 1 ≤ span.first) (hlast : 0 ≤ span.last)
    (tag : Text) (before lines : List Text) :
    analyzeSpan tag (before ++ lines) (span.shift before.length) =
      (analyzeSpan tag lines span).shift before.length := by
  have hestimate : estimateSpan tag (before ++ lines) (span.shift before.length) =
      estimateSpan tag lines span := by
    rw [estimateSpan, estimateSpan, Span.body?_shift hfirst hlast]
    rfl
  rw [analyzeSpan, analyzeSpan, hestimate]
  rfl

/-- The functions of a text in two parts, each judged in the whole text. -/
theorem map_analyzeSpan_append {tag : Text} {lines behind : List Text}
    (h : (familyOfTag tag).startsAnew lines behind = true) :
    (functionSpans (familyOfTag tag) (lines ++ behind)).map (analyzeSpan tag (lines ++ behind)) =
      (functionSpans (familyOfTag tag) lines).map (analyzeSpan tag lines)
        ++ ((functionSpans (familyOfTag tag) behind).map (analyzeSpan tag behind)).map
          (·.shift lines.length) := by
  rw [functionSpans_append h, List.map_append, List.map_map, List.map_map]
  congr 1
  · apply List.map_congr_left
    intro span hspan
    exact analyzeSpan_append_left (bounds_of_mem_functionSpans hspan).2.2 tag behind
  · apply List.map_congr_left
    intro span hspan
    obtain ⟨hfirst, hlast, -⟩ := bounds_of_mem_functionSpans hspan
    exact analyzeSpan_shift hfirst (by omega) tag lines behind

theorem analyze_of_short {source : Text} (hne : source ≠ []) (h : source.length ≤ softLimit)
    (tag : Text) : analyze source tag = .ok (analyzeText source tag) := by
  have hsoft : softLimit ≤ hardLimit := by decide
  exact analyze_of_length hne (by omega) tag

/-- With no more lines than are searched, functions are detected when there are some. -/
theorem functionSpans_ne_nil_of_detected {source tag : Text}
    (hlines : (splitLines source).length ≤ lineLimit)
    (hdetected : (extract source tag).detected = true) :
    functionSpans (familyOfTag tag) (splitLines source) ≠ [] := by
  rw [extract] at hdetected
  rw [← spans_of_functions hlines hdetected]
  exact extractLines_spans_ne_nil _ _

/-- The report on a text whose functions are found. -/
theorem analyze_of_functions {source tag : Text} (h : source.length ≤ softLimit)
    (hlines : (splitLines source).length ≤ lineLimit)
    (hne : functionSpans (familyOfTag tag) (splitLines source) ≠ []) :
    analyze source tag = .ok (Report.ofFunctions tag
      ((functionSpans (familyOfTag tag) (splitLines source)).map
        (analyzeSpan tag (splitLines source))) []) := by
  have hsource : source ≠ [] := by
    rintro rfl
    apply hne
    cases familyOfTag tag <;> rfl
  rw [analyze_of_short hsource h, analyzeText_of_short h]
  rcases extractLines_cases (splitLines source) (familyOfTag tag) with
    ⟨hmany, -⟩ | ⟨-, hnone, -⟩ | ⟨-, -, he⟩
  · omega
  · exact absurd hnone hne
  · rw [he]
    rfl

/-- Two texts with functions, the first of which ends with a line end, and the second of which
starts anew, make a text with the functions of both. -/
theorem analyze_append (tag a b : Text)
    (ha : (extract a tag).detected = true) (hb : (extract b tag).detected = true)
    (hend : a.getLast?.any isLineEnd = true)
    (hpair : ¬ (a.getLast? = some '\r' ∧ b.head? = some '\n'))
    (hlength : (a ++ b).length ≤ 100000) (hlines : (splitLines (a ++ b)).length ≤ 10000)
    (hanew : (familyOfTag tag).startsAnew (splitLines a) (splitLines b) = true) :
    ∃ ra rb, analyze a tag = .ok ra ∧ analyze b tag = .ok rb
      ∧ analyze (a ++ b) tag = .ok
        { ra with
          overall := ra.overall.join rb.overall
          functions := ra.functions ++ rb.functions.map (·.shift (splitLines a).length) } := by
  have hsoft : softLimit = 100000 := rfl
  have hlimit : lineLimit = 10000 := rfl
  have hsplit := splitLines_append hend hpair
  have hcount := hlines
  rw [hsplit, List.length_append] at hcount
  have hsize := hlength
  rw [List.length_append] at hsize
  have hsome := functionSpans_ne_nil_of_detected (by omega) ha
  have hsome' := functionSpans_ne_nil_of_detected (by omega) hb
  refine ⟨_, _, analyze_of_functions (by omega) (by omega) hsome,
    analyze_of_functions (by omega) (by omega) hsome', ?_⟩
  have hwhole : functionSpans (familyOfTag tag) (splitLines (a ++ b)) ≠ [] := by
    rw [hsplit, functionSpans_append hanew]
    exact List.append_ne_nil_of_left_ne_nil hsome _
  have hgrowths : ∀ fs : List FunctionReport, overallOf (fs.map (·.shift (splitLines a).length)) =
      overallOf fs := by
    intro fs
    rw [overallOf_eq_joinAll, overallOf_eq_joinAll, List.map_map]
    rfl
  rw [analyze_of_functions (by omega) (by omega) hwhole, hsplit, map_analyzeSpan_append hanew]
  simp only [Report.ofFunctions, overallOf_append, hgrowths]

/-- The open function of the first text ends where the second text begins. -/
theorem analyze_append_indented :
    let tag := "py".toList
    let a := "def f(a):\n  for x in a:\n    g(x)\n".toList
    let b := "def g(a):\n  return g(a)\n".toList
    (extract a tag).detected = true ∧ (extract b tag).detected = true
      ∧ a.getLast?.any isLineEnd = true
      ∧ ¬ (a.getLast? = some '\r' ∧ b.head? = some '\n')
      ∧ (a ++ b).length ≤ 100000 ∧ (splitLines (a ++ b)).length ≤ 10000
      ∧ (familyOfTag tag).startsAnew (splitLines a) (splitLines b) = true
      ∧ ∃ ra rb, analyze a tag = .ok ra ∧ analyze b tag = .ok rb
        ∧ ra.functions.map (fun f => (f.name, f.first, f.last)) = [("f".toList, 2, 3)]
        ∧ rb.functions.map (fun f => (f.name, f.first, f.last)) = [("g".toList, 2, 2)]
        ∧ analyze (a ++ b) tag = .ok
          { ra with
            overall := ra.overall.join rb.overall
            functions := ra.functions ++ rb.functions.map (·.shift 3) } := by
  intro tag a b
  have ha : (extract a tag).detected = true := by decide +kernel
  have hb : (extract b tag).detected = true := by decide +kernel
  have hend : a.getLast?.any isLineEnd = true := by decide +kernel
  have hpair : ¬ (a.getLast? = some '\r' ∧ b.head? = some '\n') := by decide +kernel
  have hlength : (a ++ b).length ≤ 100000 := by decide +kernel
  have hlines : (splitLines (a ++ b)).length ≤ 10000 := by decide +kernel
  have hanew : (familyOfTag tag).startsAnew (splitLines a) (splitLines b) = true := by
    decide +kernel
  obtain ⟨ra, rb, hra, hrb, hwhole⟩ :=
    analyze_append tag a b ha hb hend hpair hlength hlines hanew
  have hfa : (analyze a tag).toOption.map (·.functions.map fun f => (f.name, f.first, f.last)) =
      some [("f".toList, 2, 3)] := by decide +kernel
  have hfb : (analyze b tag).toOption.map (·.functions.map fun f => (f.name, f.first, f.last)) =
      some [("g".toList, 2, 2)] := by decide +kernel
  have hcount : (splitLines a).length = 3 := by decide +kernel
  rw [hra] at hfa
  rw [hrb] at hfb
  rw [hcount] at hwhole
  exact ⟨ha, hb, hend, hpair, hlength, hlines, hanew, ra, rb, hra, hrb, Option.some.inj hfa,
    Option.some.inj hfb, hwhole⟩

end GrowthEstimate
