import GrowthEstimate.Estimate
import GrowthEstimate.Extraction
import GrowthEstimate.Report

/-!
# Analysis of a source text

A text that is empty or longer than the hard limit is rejected.  One that is longer than the soft
limit gets a report without functions.  Any other is cut into function spans, and each of them is
judged on its body.

* `validate_eq`, `validate_eq_ok_iff`: exactly which texts are not rejected;
* `analyze_of_length`, `analyze_eq_ok_iff`: these are analysed.
-/

namespace GrowthEstimate

open Text (splitLines)

/-- A text longer than this is rejected. -/
def hardLimit : Nat := 500000

/-- A text longer than this is not analysed in detail. -/
def softLimit : Nat := 100000

/-- Why a text is not analysed at all. -/
inductive Rejection
  | empty
  | tooLong (length : Nat) (limit : Int)
  deriving DecidableEq

namespace Rejection

def message : Rejection → Text
  | empty => "Empty code provided".toList
  | tooLong length limit =>
    "Code too large to analyze (".toList ++ Decimal.ofNat length ++ " > ".toList
      ++ Decimal.ofInt limit ++ " chars)".toList

def length : Rejection → Nat
  | empty => 0
  | tooLong length _ => length

end Rejection

inductive Warning
  | noFunction
  | tooLong
  | tooManyLines
  deriving DecidableEq

def Warning.text : Warning → Text
  | noFunction => "no functions detected — analyzing entire input as one block".toList
  | tooLong => "Code too large to analyze safely".toList
  | tooManyLines =>
    "Input exceeds 10,000 lines; only the first 1,000 lines were analyzed".toList

/-- Whether a text may be analysed under a limit. -/
def validate (limit : Int) (source : Text) : Except Rejection Unit :=
  if source.isEmpty then .error .empty
  else if limit < source.length then .error (.tooLong source.length limit)
  else .ok ()

/-! ## One function -/

/-- The estimate of a span's function, by the rules of a language tag. -/
def estimateSpan (tag : Text) (lines : List Text) (span : Span) : Estimate :=
  match span.body? lines with
  | some body => Estimate.ofBody (builtinsOfTag tag) (familyOfTag tag) span.name body
  | none => Estimate.unreadable

/-- The report on a span, given the estimate of its function. -/
def Span.report (span : Span) (e : Estimate) : FunctionReport where
  name := span.name
  growth := e.growth
  confidence := e.confidence
  rationale := e.notes.map Note.text
  first := span.first
  last := span.last

def analyzeSpan (tag : Text) (lines : List Text) (span : Span) : FunctionReport :=
  span.report (estimateSpan tag lines span)

/-! ## Whole texts -/

/-- What the outcome of the search for functions is warned of by. -/
def Extraction.warnings (e : Extraction) : List Warning :=
  match e.outcome with
  | .functions => []
  | .noFunction => [.noFunction]
  | .tooManyLines => [.tooManyLines]

def analyzeText (source tag : Text) : Report :=
  if softLimit < source.length then Report.degraded tag Warning.tooLong.text
  else
    let lines := splitLines source
    let extraction := extractLines lines (familyOfTag tag)
    Report.ofFunctions tag (extraction.spans.map (analyzeSpan tag lines))
      (extraction.warnings.map Warning.text)

/-- The report on a text in the language of a tag. -/
def analyze (source tag : Text) : Except Rejection Report :=
  (validate hardLimit source).map fun _ => analyzeText source tag

theorem validate_eq (limit : Int) (source : Text) :
    validate limit source =
      if source = [] then .error .empty
      else if limit < source.length then .error (.tooLong source.length limit)
      else .ok () := by
  simp only [validate, List.isEmpty_iff]

theorem validate_eq_ok_iff {limit : Int} {source : Text} :
    validate limit source = .ok () ↔ source ≠ [] ∧ (source.length : Int) ≤ limit := by
  rw [validate_eq]
  split
  · next hempty => simp [hempty]
  · next hne =>
    split
    · next hlong => simp [Int.not_le.2 hlong]
    · next hshort => simp [hne, Int.not_lt.1 hshort]

theorem analyze_of_length {source : Text} (hne : source ≠ []) (h : source.length ≤ hardLimit)
    (tag : Text) : analyze source tag = .ok (analyzeText source tag) := by
  have hvalid : validate hardLimit source = .ok () :=
    validate_eq_ok_iff.2 ⟨hne, Int.ofNat_le.2 h⟩
  rw [analyze, hvalid]
  rfl

theorem analyze_eq_ok_iff {source tag : Text} {r : Report} :
    analyze source tag = .ok r ↔
      validate hardLimit source = .ok () ∧ r = analyzeText source tag := by
  rw [analyze]
  cases validate hardLimit source with
  | error reason => simp [Except.map]
  | ok _ => simp [Except.map, eq_comm]

end GrowthEstimate
