import GrowthEstimate.Analysis.Session

/-!
# Runs of a session

A step reads of a session only its tag and, when it is a look, the place of one span.  No step
changes either, so every step is answered as in a session of its own.  The findings with a span are
written by the looks that can read its body, each over the last.

* `TrackedSpan.behind`: a span behind some steps, told from the steps alone;
* `Session.step_getElem?`, `Session.run_getElem?`: it is the span that the session has then;
* `Session.run_answers_getElem?`: each answer is that of its step behind the steps before;
* `Session.run_independent`: the answers and the spans of a run.
-/

namespace GrowthEstimate

open Session (Step)

/-- The findings that a step writes to the span at an index. -/
def Session.Step.findings? (tag : Text) (index : Nat) (span : Span) : Step → Option Findings
  | look looked lines =>
    if looked = index then
      (span.body? lines).map fun body =>
        (Signals.ofBody (builtinsOfTag tag) (familyOfTag tag) span.name body).findings
    else none
  | analyze _ => none

namespace TrackedSpan

def behind (tag : Text) (index : Nat) (steps : List Step) (t : TrackedSpan) : TrackedSpan where
  span := t.span
  findings := (steps.filterMap (Step.findings? tag index t.span)).getLast?.getD t.findings

variable (tag : Text) (index : Nat) (t : TrackedSpan)

theorem behind_behind (steps steps' : List Step) :
    (t.behind tag index steps).behind tag index steps' = t.behind tag index (steps ++ steps') := by
  rw [behind, behind, behind, List.filterMap_append, List.getLast?_append]
  cases (steps'.filterMap (Step.findings? tag index t.span)).getLast? <;> rfl

/-- A step that is no look at the span leaves it as it is. -/
theorem behind_of_findings_eq_none {step : Step} (h : step.findings? tag index t.span = none) :
    t.behind tag index [step] = t := by
  rw [behind, List.filterMap_cons, h]
  rfl

theorem behind_look (lines : List Text) :
    t.behind tag index [.look index lines] = (Session.look tag lines t).2 := by
  rw [behind, Session.look, List.filterMap_cons, Step.findings?, if_pos rfl]
  cases t.span.body? lines <;> rfl

end TrackedSpan

namespace Session

variable (s : Session)

/-! ## One step -/

theorem step_tag (step : Step) : (s.step step).2.tag = s.tag := by
  cases step with
  | look index lines =>
    rw [Session.step]
    cases s.spans[index]? <;> rfl
  | analyze source => rfl

theorem step_ruleTag (step : Step) : (s.step step).2.ruleTag = s.ruleTag := by
  rw [ruleTag, step_tag, ruleTag]

theorem step_getElem? (step : Step) (index : Nat) :
    (s.step step).2.spans[index]? =
      s.spans[index]?.map (TrackedSpan.behind s.ruleTag index [step]) := by
  cases step with
  | look looked lines =>
    by_cases h : looked = index
    · subst h
      cases ht : s.spans[looked]? with
      | none => simp only [Session.step, ht, Option.map_none]
      | some t =>
        have hlt : looked < s.spans.length := (List.getElem?_eq_some_iff.1 ht).1
        simp only [Session.step, ht, Option.map_some, List.getElem?_set_self hlt,
          TrackedSpan.behind_look]
    · have hunseen : ∀ t : TrackedSpan,
          t.behind s.ruleTag index [.look looked lines] = t := fun t =>
        t.behind_of_findings_eq_none _ _ (if_neg h)
      rw [funext hunseen, Option.map_id', Session.step]
      cases s.spans[looked]? with
      | none => rfl
      | some t => exact List.getElem?_set_ne h
  | analyze source => exact Option.map_id'.symm

/-- A look is answered with the report on the place of the span. -/
theorem step_look {index : Nat} {t : TrackedSpan} (h : s.spans[index]? = some t)
    (lines : List Text) :
    (s.step (.look index lines)).1 =
      .looked (analyzeSpan s.ruleTag lines t.span)
        (t.behind s.ruleTag index [.look index lines]) := by
  simp only [Session.step, h, TrackedSpan.behind_look, ← look_report]

theorem step_analyze (source : Text) :
    s.step (.analyze source) = (.analyzed ((requireTag s.tag).map (analyzeText source)), s) := rfl

/-! ## Whole runs -/

theorem run_cons (step : Step) (rest : List Step) :
    s.run (step :: rest) =
      ((s.step step).1 :: ((s.step step).2.run rest).1, ((s.step step).2.run rest).2) := rfl

theorem run_tag (steps : List Step) : (s.run steps).2.tag = s.tag := by
  induction steps generalizing s with
  | nil => rfl
  | cons step rest ih => rw [run_cons, ih, step_tag]

theorem run_ruleTag (steps : List Step) : (s.run steps).2.ruleTag = s.ruleTag := by
  rw [ruleTag, run_tag, ruleTag]

theorem run_getElem? (steps : List Step) (index : Nat) :
    (s.run steps).2.spans[index]? =
      s.spans[index]?.map (TrackedSpan.behind s.ruleTag index steps) := by
  induction steps generalizing s with
  | nil => exact Option.map_id'.symm
  | cons step rest ih =>
    rw [run_cons, ih, step_getElem?, step_ruleTag, Option.map_map]
    congr 1
    funext t
    exact t.behind_behind s.ruleTag index [step] rest

theorem run_answers_getElem? (steps : List Step) (i : Nat) :
    (s.run steps).1[i]? = steps[i]?.map fun step => ((s.run (steps.take i)).2.step step).1 := by
  induction steps generalizing s i with
  | nil => rfl
  | cons step rest ih =>
    cases i with
    | zero => rfl
    | succ i =>
      rw [run_cons, List.getElem?_cons_succ, List.getElem?_cons_succ, List.take_succ_cons, run_cons]
      exact ih _ i

theorem run_answers_length (steps : List Step) : (s.run steps).1.length = steps.length := by
  induction steps generalizing s with
  | nil => rfl
  | cons step rest ih => rw [run_cons, List.length_cons, ih, List.length_cons]

/-- No run moves a span. -/
theorem run_spans (steps : List Step) :
    (s.run steps).2.spans.map (·.span) = s.spans.map (·.span) := by
  apply List.ext_getElem?
  intro index
  rw [List.getElem?_map, List.getElem?_map, run_getElem?, Option.map_map]
  rfl

/-- Every step is answered as in a session of its own: a look as at the one span of it, whatever
findings that has, and an analysis as among any spans.  Behind the run each span has the place it
had and the findings of the last look at it that could read its body; those it had, if there was
none. -/
theorem run_independent (steps : List Step) :
    (s.run steps).1.length = steps.length
      ∧ (∀ (i index : Nat) (lines : List Text) (t : TrackedSpan),
          steps[i]? = some (.look index lines) → s.spans[index]? = some t →
          ∃ report behind, (s.run steps).1[i]? = some (.looked report behind)
            ∧ (s.run (steps.take (i + 1))).2.spans[index]? = some behind
            ∧ ∀ findings, ∃ alone,
                (Session.step ⟨s.tag, [⟨t.span, findings⟩]⟩ (.look 0 lines)).1 =
                  .looked report alone)
      ∧ (∀ (i : Nat) (source : Text), steps[i]? = some (.analyze source) →
          ∃ outcome, (s.run steps).1[i]? = some (.analyzed outcome)
            ∧ ∀ spans, Session.step ⟨s.tag, spans⟩ (.analyze source) =
                (.analyzed outcome, ⟨s.tag, spans⟩))
      ∧ (s.run steps).2.tag = s.tag
      ∧ (s.run steps).2.spans.map (·.span) = s.spans.map (·.span)
      ∧ ∀ (index : Nat) (t : TrackedSpan), s.spans[index]? = some t →
          (s.run steps).2.spans[index]? =
            some ⟨t.span,
              (steps.filterMap (Step.findings? s.ruleTag index t.span)).getLast?.getD
                t.findings⟩ := by
  refine ⟨s.run_answers_length steps, ?_, ?_, s.run_tag steps, s.run_spans steps, ?_⟩
  · intro i index lines t hstep ht
    have htag := s.run_ruleTag (steps.take i)
    have hspan : (s.run (steps.take i)).2.spans[index]? =
        some (t.behind s.ruleTag index (steps.take i)) := by
      rw [run_getElem?, ht, Option.map_some]
    refine ⟨analyzeSpan s.ruleTag lines t.span, t.behind s.ruleTag index (steps.take (i + 1)),
      ?_, ?_, ?_⟩
    · rw [run_answers_getElem?, hstep, Option.map_some, step_look _ hspan, htag,
        TrackedSpan.behind_behind, List.take_add_one, hstep]
      rfl
    · rw [run_getElem?, ht, Option.map_some]
    · intro findings
      have halone : ([⟨t.span, findings⟩] : List TrackedSpan)[0]? = some ⟨t.span, findings⟩ := rfl
      exact ⟨_, step_look ⟨s.tag, _⟩ halone lines⟩
  · intro i source hstep
    refine ⟨(requireTag s.tag).map (analyzeText source), ?_, fun spans => rfl⟩
    rw [run_answers_getElem?, hstep, Option.map_some, step_analyze, run_tag]
  · intro index t ht
    rw [run_getElem?, ht, Option.map_some]
    rfl

/-- A span with findings from before, which two looks cannot read on the lines they are given: the
first leaves the old findings, the last those of the look in the middle. -/
theorem run_independent_unread :
    let old : Findings := ⟨7, -1, true, false, true⟩
    let span := Span.onLines "f".toList 2 3
    let s : Session := ⟨some "py".toList, [⟨span, old⟩]⟩
    let lines := ["def f(a):", "  for x in a:", "    f(x)"].map String.toList
    let steps : List Step :=
      [.look 0 [], .analyze "def f(a): pass".toList, .look 0 lines, .look 0 (lines.take 1)]
    (s.run (steps.take 2)).2.spans[0]? = some ⟨span, old⟩
      ∧ (s.run steps).2.spans[0]? = some ⟨span, ⟨1, 1, false, false, false⟩⟩
      ∧ (∃ report behind, (s.run steps).1[2]? = some (.looked report behind)
          ∧ ∀ findings, ∃ alone,
              (Session.step ⟨s.tag, [⟨span, findings⟩]⟩ (.look 0 lines)).1 = .looked report alone)
      ∧ ∃ outcome, (s.run steps).1[1]? = some (.analyzed outcome)
          ∧ ∀ spans, Session.step ⟨s.tag, spans⟩ (.analyze "def f(a): pass".toList) =
              (.analyzed outcome, ⟨s.tag, spans⟩) := by
  intro old span s lines steps
  have hwritten : (steps.take 2).filterMap (Step.findings? s.ruleTag 0 span) = [] := by
    decide +kernel
  have hwritten' : steps.filterMap (Step.findings? s.ruleTag 0 span) =
      [⟨1, 1, false, false, false⟩] := by decide +kernel
  obtain ⟨-, -, -, -, -, hfindings⟩ := s.run_independent (steps.take 2)
  obtain ⟨-, hlooks, hanalyses, -, -, hfindings'⟩ := s.run_independent steps
  refine ⟨?_, ?_, ?_, hanalyses 1 _ rfl⟩
  · rw [hfindings 0 ⟨span, old⟩ rfl, hwritten]
    rfl
  · rw [hfindings' 0 ⟨span, old⟩ rfl, hwritten']
    rfl
  · obtain ⟨report, behind, hanswer, -, halone⟩ := hlooks 2 0 lines ⟨span, old⟩ rfl rfl
    exact ⟨report, behind, hanswer, halone⟩

end Session

end GrowthEstimate
