import GrowthEstimate.Analysis.Session
import GrowthEstimate.Proofs.Layout

/-!
# Loops in an indented body

The lines of an indented body tell by their indents which loop stands inside which.  The depth that
is found does not: off the margin a loop is never counted as closed, so loops that follow each other
add up like loops inside each other.

* `countP_lines`: the lines of a body that start a loop are its loops;
* `nesting_eq_loops_iff`: as many stand inside each other as there are just when none follows
  another;
* `loopDepth_look`: the depth that a look at a span leaves with it;
* `sequential_loops_add_up`: two loops behind each other, found two deep;
* `loopDepth_suite`: the depth of a body of statements and loops, and when it is their nesting.
-/

namespace GrowthEstimate

open Text

namespace Body

/-! ## Bodies of statements and loops -/

structure SkippedLine where
  text : Text
  isSkipped_eq : isSkipped (trim text) = true

/-- A line with the given indent that starts a loop or does not. -/
structure LineAt (indent : Nat) (loop : Bool) where
  text : Text
  indentOf_eq : indentOf text = indent
  isLoopStart_eq : isLoopStart .indentation (trim text) = loop

/-- Statements and loops that follow each other with the same indent, and blank lines and comments
between them.  The body of a loop has a deeper indent. -/
inductive Suite : (indent : Nat) → Type
  | none {indent : Nat} : Suite indent
  | skipped {indent : Nat} (line : SkippedLine) (rest : Suite indent) : Suite indent
  | statement {indent : Nat} (line : LineAt indent false) (rest : Suite indent) : Suite indent
  | loop {indent deeper : Nat} (header : LineAt indent true) (indent_lt : indent < deeper)
      (inside : Suite deeper) (rest : Suite indent) : Suite indent

namespace Suite

variable {indent : Nat}

def lines : {indent : Nat} → Suite indent → List Text
  | _, none => []
  | _, skipped line rest => line.text :: rest.lines
  | _, statement line rest => line.text :: rest.lines
  | _, loop header _ inside rest => header.text :: (inside.lines ++ rest.lines)

/-- The greatest number of loops inside each other. -/
def nesting : {indent : Nat} → Suite indent → Nat
  | _, none => 0
  | _, skipped _ rest => rest.nesting
  | _, statement _ rest => rest.nesting
  | _, loop _ _ inside rest => max (inside.nesting + 1) rest.nesting

def loops : {indent : Nat} → Suite indent → Nat
  | _, none => 0
  | _, skipped _ rest => rest.loops
  | _, statement _ rest => rest.loops
  | _, loop _ _ inside rest => inside.loops + 1 + rest.loops

/-- Whether no loop follows another one: every loop has all later ones inside it. -/
def isNest : {indent : Nat} → Suite indent → Bool
  | _, none => true
  | _, skipped _ rest => rest.isNest
  | _, statement _ rest => rest.isNest
  | _, loop _ _ inside rest => inside.isNest && rest.loops == 0

theorem countP_lines (suite : Suite indent) :
    (suite.lines.map trim).countP (isLoopStart .indentation) = suite.loops := by
  induction suite with
  | none => rfl
  | skipped line rest ih =>
    simpa [lines, loops, isLoopStart_of_skipped line.isSkipped_eq] using ih
  | statement line rest ih => simpa [lines, loops, line.isLoopStart_eq] using ih
  | loop header indent_lt inside rest ihInside ihRest =>
    rw [lines, List.map_cons, List.map_append, List.countP_cons_of_pos header.isLoopStart_eq,
      List.countP_append, ihInside, ihRest, loops]
    omega

theorem nesting_le_loops (suite : Suite indent) : suite.nesting ≤ suite.loops := by
  induction suite with
  | none => exact Nat.le_refl 0
  | skipped line rest ih => exact ih
  | statement line rest ih => exact ih
  | loop header indent_lt inside rest ihInside ihRest =>
    simp only [nesting, loops]
    omega

theorem nesting_eq_loops_iff (suite : Suite indent) :
    suite.nesting = suite.loops ↔ suite.isNest = true := by
  induction suite with
  | none => simp [nesting, loops, isNest]
  | skipped line rest ih => exact ih
  | statement line rest ih => exact ih
  | loop header indent_lt inside rest ihInside ihRest =>
    have hinside := nesting_le_loops inside
    have hrest := nesting_le_loops rest
    rw [isNest, Bool.and_eq_true, ← ihInside, beq_iff_eq]
    simp only [nesting, loops]
    omega

end Suite

end Body

/-! ## The depth that is found -/

theorem Body.loopDepth_nil (family : Family) : Body.loopDepth family [] = 0 := rfl

/-- A look at a span leaves with it the depth of the lines of its range, none of which may exist. -/
theorem loopDepth_look (tag : Text) (lines : List Text) {span : Span}
    (hinline : span.inlineBody = none) :
    (Session.look tag lines ⟨span, .none⟩).2.findings.loopDepth =
      Body.loopDepth (familyOfTag tag) (joinLines (span.bodyLines lines)) := by
  by_cases hempty : span.bodyLines lines = []
  · have hbody : span.body? lines = none := Span.body?_eq_none hinline hempty
    simp only [Session.look, hbody, hempty]
    exact congrArg Int.ofNat (Body.loopDepth_nil _).symm
  · have hbody : span.body? lines = some (joinLines (span.bodyLines lines)) :=
      Span.body?_of_bodyLines hinline rfl hempty
    simp only [Session.look, hbody]
    rfl

open Body in
/-- Two loops behind each other are found two deep. -/
theorem sequential_loops_add_up :
    let source := "def f(a):\n    for x in a:\n        g(x)\n    for y in a:\n        g(y)\n".toList
    let span := Span.onLines "f".toList 2 5
    ∃ suite : Suite 4, Language.ofTag? "python".toList = some .python
      ∧ (splitLines source).length ≤ 10000 ∧ (extract source "python".toList).detected = true
      ∧ span ∈ (extract source "python".toList).spans
      ∧ span.bodyLines (splitLines source) = suite.lines ∧ suite.lines.length ≤ 1000
      ∧ suite.nesting = 1
      ∧ (Session.look "python".toList (splitLines source) ⟨span, .none⟩).2.findings.loopDepth =
        2 := by
  intro source span
  let second : Suite 4 :=
    .loop ⟨"    for y in a:".toList, by decide, by decide⟩ (by decide : 4 < 8)
      (.statement ⟨"        g(y)".toList, by decide, by decide⟩ .none) .none
  let suite : Suite 4 :=
    .loop ⟨"    for x in a:".toList, by decide, by decide⟩ (by decide : 4 < 8)
      (.statement ⟨"        g(x)".toList, by decide, by decide⟩ .none) second
  refine ⟨suite, ?_⟩
  decide +kernel

open Body in
/-- In a Python text with functions, a function whose body of at most 1000 lines consists of
statements and loops is found as many loops deep as there are loops in it, up to 10.  That is the
greatest number of loops inside each other just when no loop follows another one, or when ten stand
inside each other. -/
theorem loopDepth_suite (source tag : Text) (hpython : Language.ofTag? tag = some .python)
    (hlines : (splitLines source).length ≤ 10000) (hdetected : (extract source tag).detected = true)
    {span : Span} (hspan : span ∈ (extract source tag).spans) {indent : Nat} (suite : Suite indent)
    (hbody : span.bodyLines (splitLines source) = suite.lines)
    (hcount : suite.lines.length ≤ 1000) :
    let depth := (Session.look tag (splitLines source) ⟨span, .none⟩).2.findings.loopDepth
    depth = (min 10 suite.loops : Nat)
      ∧ (depth = (min 10 suite.nesting : Nat) ↔ suite.isNest = true ∨ 10 ≤ suite.nesting) := by
  intro depth
  have hfamily : familyOfTag tag = .indentation := by
    rw [familyOfTag, hpython]
    rfl
  have hfunction : span ∈ functionSpans .indentation (splitLines source) := by
    rw [extract, hfamily] at hspan hdetected
    rwa [spans_of_functions hlines hdetected] at hspan
  have hshort : (suite.lines.map trim).length ≤ loopScanLines := by
    rw [List.length_map]
    exact hcount
  have hdepth : depth = (min 10 suite.loops : Nat) := by
    show (Session.look tag (splitLines source) ⟨span, .none⟩).2.findings.loopDepth = _
    rw [loopDepth_look tag _ (inlineBody_of_indented hfunction), hfamily,
      loopDepth_joinLines_of_offMargin (fun _ => not_isLineEnd_of_mem_bodyLines)
        (fun _ => head_isBlank_of_mem_bodyLines hfunction),
      hbody, List.take_of_length_le hshort, suite.countP_lines, Nat.min_comm]
    rfl
  refine ⟨hdepth, ?_⟩
  have hle := suite.nesting_le_loops
  rw [hdepth, ← suite.nesting_eq_loops_iff]
  omega

open Body in
/-- A loop inside another one, with a comment and a blank line around it. -/
theorem loopDepth_suite_nested :
    let source := ("def f(a):\n    for x in a:\n        # pairs\n        while x:\n"
      ++ "            g(x)\n\ndef h(a):\n    return a\n").toList
    let span := Span.onLines "f".toList 2 6
    ∃ suite : Suite 4, Language.ofTag? "python".toList = some .python
      ∧ (splitLines source).length ≤ 10000 ∧ (extract source "python".toList).detected = true
      ∧ span ∈ (extract source "python".toList).spans
      ∧ span.bodyLines (splitLines source) = suite.lines ∧ suite.lines.length ≤ 1000
      ∧ suite.isNest = true ∧ suite.nesting = 2
      ∧ (Session.look "python".toList (splitLines source) ⟨span, .none⟩).2.findings.loopDepth =
        2 := by
  intro source span
  let inside : Suite 8 :=
    .skipped ⟨"        # pairs".toList, by decide⟩
      (.loop ⟨"        while x:".toList, by decide, by decide⟩ (by decide : 8 < 12)
        (.statement ⟨"            g(x)".toList, by decide, by decide⟩
          (.skipped ⟨[], by decide⟩ .none)) .none)
  let suite : Suite 4 :=
    .loop ⟨"    for x in a:".toList, by decide, by decide⟩ (by decide : 4 < 8) inside .none
  have hdetected : (extract source "python".toList).detected = true := by decide +kernel
  have hspan : span ∈ (extract source "python".toList).spans := by decide +kernel
  have hbody : span.bodyLines (splitLines source) = suite.lines := by decide +kernel
  have hnest : suite.isNest = true := by decide
  have hnesting : suite.nesting = 2 := by decide
  refine ⟨suite, by decide, by decide +kernel, hdetected, hspan, hbody, by decide, hnest,
    hnesting, ?_⟩
  have hdepth := (loopDepth_suite source "python".toList (by decide) (by decide +kernel) hdetected
    hspan suite hbody (by decide)).2.2 (Or.inl hnest)
  rw [hnesting] at hdepth
  exact hdepth

end GrowthEstimate
