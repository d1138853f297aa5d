import GrowthEstimate.Analysis.Intake

/-!
# Sessions

A session holds spans and one language, and takes steps: a look at one of the spans on given
lines, or the analysis of a whole text.  A look leaves the findings with the span when its body
can be read, judges by what is with the span then, and changes nothing else.

* `look_span`: the place of a span never changes;
* `look_report`: the report of a look depends on the span's place and the lines alone.
-/

namespace GrowthEstimate

/-- The signals with the findings of a span in the place of their own. -/
def Signals.readBack (s : Signals) (f : Findings) : Signals :=
  { s with
    loopDepth := f.loopDepth.toNat
    selfCalls := f.selfCalls.toNat
    binarySearch := f.binarySearch
    sorting := f.sorting
    dynamicProgramming := f.dynamicProgramming }

theorem Signals.readBack_findings (s : Signals) : s.readBack s.findings = s := rfl

/-- A span with what the last look at its body found. -/
structure TrackedSpan where
  span : Span
  findings : Findings
  deriving DecidableEq

/-- A session: its language tag, if it has one, and its spans. -/
structure Session where
  tag : Option Text
  spans : List TrackedSpan

namespace Session

inductive Step
  | look (index : Nat) (lines : List Text)
  | analyze (source : Text)

inductive Answer
  | looked (report : FunctionReport) (behind : TrackedSpan)
  | analyzed (outcome : Except Failure Report)
  | noSuchSpan

def ruleTag (s : Session) : Text := s.tag.getD []

/-- A look at a span on the given lines: its report, and the span behind it.  The findings are
written to the span first, and the estimate is made from those that are read back. -/
def look (tag : Text) (lines : List Text) (t : TrackedSpan) : FunctionReport × TrackedSpan :=
  match t.span.body? lines with
  | some body =>
    let signals := Signals.ofBody (builtinsOfTag tag) (familyOfTag tag) t.span.name body
    let behind := { t with findings := signals.findings }
    (behind.span.report (Estimate.ofSignals (signals.readBack behind.findings)), behind)
  | none => (t.span.report Estimate.unreadable, t)

def step (s : Session) : Step → Answer × Session
  | .look index lines =>
    match s.spans[index]? with
    | some t =>
      let (report, behind) := look s.ruleTag lines t
      (.looked report behind, { s with spans := s.spans.set index behind })
    | none => (.noSuchSpan, s)
  | .analyze source => (.analyzed ((requireTag s.tag).map (analyzeText source)), s)

def run : Session → List Step → List Answer × Session
  | s, [] => ([], s)
  | s, next :: rest =>
    let (answer, s) := s.step next
    let (answers, s) := s.run rest
    (answer :: answers, s)

theorem look_span (tag : Text) (lines : List Text) (t : TrackedSpan) :
    (look tag lines t).2.span = t.span := by
  rw [look]
  cases t.span.body? lines <;> rfl

theorem look_report (tag : Text) (lines : List Text) (t : TrackedSpan) :
    (look tag lines t).1 = analyzeSpan tag lines t.span := by
  rw [look, analyzeSpan, estimateSpan]
  cases t.span.body? lines with
  | some body =>
    simp only [Signals.readBack_findings]
    rfl
  | none => rfl

end Session

open Schema in
/-- A span from an untyped value; only its lines have to be given. -/
def TrackedSpan.read : Reader TrackedSpan := record fun j =>
  (fun name first last inlineBody depth calls search sorting table =>
      ⟨⟨name, first, last, inlineBody⟩, ⟨depth, calls, search, sorting, table⟩⟩)
    <$> optional "name" Span.placeholder Schema.text j
    <*> required "start_line" int j
    <*> required "end_line" int j
    <*> optional "inline_body" none textOrNull j
    <*> optional "loop_depth" 0 int j
    <*> optional "recursive_calls" 0 int j
    <*> optional "has_binary_search" false bool j
    <*> optional "has_sorting" false bool j
    <*> optional "has_dynamic_programming" false bool j

/-- A session over spans given as untyped values; the first one that does not fit is the
failure. -/
def Session.start (tag : Option Text) (spans : List Json) : Except Failure Session :=
  (spans.mapM fun j => (TrackedSpan.read j).orFail).map fun spans => ⟨tag, spans⟩

end GrowthEstimate
