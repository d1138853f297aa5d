import GrowthEstimate.Analysis

/-!
# The rationale of an estimate

The notes of an estimate come in a fixed order: the builtins, the loops, the recursion, and then
dynamic programming, sorting and factorial.  A step of the estimate does what the notes that it
leaves say, one after the other.

* `withLoops_eq` to `withFactorial_eq`: the steps, note by note;
* `ofSignals_notes`: the notes that the six steps leave, read off the signals;
* `Note.text_injective`: two notes with one text are one note;
* `unreadableBody_not_mem_notes`: a body that was read is never called unreadable.
-/

namespace GrowthEstimate

namespace Signals

def loopNotes (s : Signals) : List Note :=
  match s.loopDepth with
  | 0 => if s.selfCalls = 0 then [.neitherLoopNorCall] else []
  | 1 => if s.binarySearch then [.oneLoop, .binarySearch] else [.oneLoop]
  | 2 => [.twoLoops]
  | 3 => [.threeLoops]
  | depth => [.deepLoops depth]

def recursionNotes (s : Signals) : List Note :=
  if s.selfCalls = 0 then []
  else if s.tailRecursive then [.tailRecursion]
  else if s.divideAndConquer then [.divideAndConquer]
  else if 1 < s.selfCalls then if s.fibonacciLike then [.fibonacciLike] else [.severalCalls]
  else [.oneCall]

def notes (s : Signals) : List Note :=
  s.builtins.map (.builtin ·.name) ++ s.loopNotes ++ s.recursionNotes
    ++ (if s.dynamicProgramming then [.dynamicProgramming] else [])
    ++ (if s.sorting then [.sorting] else []) ++ (if s.factorial then [.factorial] else [])

end Signals

/-! ## One note at a time -/

/-- The class that a builtin of a name brings, by the first table that has it. -/
def growthOfBuiltin (name : Text) : Growth :=
  (((Language.supported.flatMap Language.builtins).find? (·.name == name)).map (·.growth)).getD
    .constant

namespace Estimate

def noted (e : Estimate) (note : Note) : Estimate :=
  match note with
  | .unreadableBody | .neitherLoopNorCall => { e with notes := e.notes ++ [note] }
  | .builtin name => e.joined (growthOfBuiltin name) note
  | .oneLoop => e.joined .linear note
  | .binarySearch => ⟨.logarithmic, 0.9, e.notes ++ [note]⟩
  | .twoLoops => e.judged .quadratic 0.85 note
  | .threeLoops => e.judged .cubic 0.85 note
  | .deepLoops _ => e.judged .polynomial 0.7 note
  | .tailRecursion => e.judged .linear 0.8 note
  | .divideAndConquer => e.judged .linearithmic 0.85 note
  | .fibonacciLike => e.judged .exponential 0.9 note
  | .severalCalls => e.judged .exponential 0.7 note
  | .oneCall => e.judged .linear 0.7 note
  | .dynamicProgramming =>
    { e with
      confidence := if (0.6 : Float) < e.confidence then 0.6 else e.confidence
      notes := e.notes ++ [note] }
  | .sorting => e.joined .linearithmic note
  | .factorial => e.judged .factorial 0.8 note

theorem noted_notes (e : Estimate) (note : Note) : (e.noted note).notes = e.notes ++ [note] := by
  cases note <;> rfl

theorem foldl_noted_notes (e : Estimate) (notes : List Note) :
    (notes.foldl noted e).notes = e.notes ++ notes := by
  induction notes generalizing e with
  | nil => simp
  | cons note notes ih => rw [List.foldl_cons, ih, noted_notes, ← List.append_cons]

theorem withBuiltins_notes (builtins : List Builtin) (e : Estimate) :
    (e.withBuiltins builtins).notes = e.notes ++ builtins.map (.builtin ·.name) := by
  unfold withBuiltins
  induction builtins generalizing e with
  | nil => simp
  | cons b builtins ih =>
    rw [List.foldl_cons, ih, joined]
    simp

theorem withLoops_eq (s : Signals) (e : Estimate) :
    e.withLoops s = s.loopNotes.foldl noted e := by
  unfold withLoops Signals.loopNotes
  rcases s.loopDepth with _ | _ | _ | _ | depth
  · by_cases hcalls : s.selfCalls = 0 <;> simp [hcalls, noted]
  · cases s.binarySearch <;> rfl
  · rfl
  · rfl
  · rfl

theorem withRecursion_eq (s : Signals) (e : Estimate) :
    e.withRecursion s = s.recursionNotes.foldl noted e := by
  unfold withRecursion Signals.recursionNotes
  repeat' split
  all_goals rfl

theorem withDynamicProgramming_eq (s : Signals) (e : Estimate) :
    e.withDynamicProgramming s =
      (if s.dynamicProgramming then [Note.dynamicProgramming] else []).foldl noted e := by
  unfold withDynamicProgramming
  split <;> rfl

theorem withSorting_eq (s : Signals) (e : Estimate) :
    e.withSorting s = (if s.sorting then [Note.sorting] else []).foldl noted e := by
  unfold withSorting
  split <;> rfl

theorem withFactorial_eq (s : Signals) (e : Estimate) :
    e.withFactorial s = (if s.factorial then [Note.factorial] else []).foldl noted e := by
  unfold withFactorial
  split <;> rfl

theorem ofSignals_notes (s : Signals) : (ofSignals s).notes = s.notes := by
  rw [ofSignals, withFactorial_eq, withSorting_eq, withDynamicProgramming_eq, withRecursion_eq,
    withLoops_eq, Signals.notes]
  simp only [foldl_noted_notes, withBuiltins_notes]
  rfl

end Estimate

/-! ## Notes and their texts -/

/-- The first three letters of the text of a note; no two kinds of notes share them. -/
def Note.opening : Note → Text
  | unreadableBody => ['U', 'n', 'a']
  | builtin _ => ['B', 'u', 'i']
  | neitherLoopNorCall => ['N', 'o', ' ']
  | oneLoop => ['S', 'i', 'n']
  | binarySearch => ['B', 'i', 'n']
  | twoLoops => ['N', 'e', 's']
  | threeLoops => ['T', 'r', 'i']
  | deepLoops _ => ['D', 'e', 'e']
  | tailRecursion => ['T', 'a', 'i']
  | divideAndConquer => ['D', 'i', 'v']
  | fibonacciLike => ['E', 'x', 'p']
  | severalCalls => ['M', 'u', 'l']
  | oneCall => ['S', 'i', 'm']
  | dynamicProgramming => ['D', 'y', 'n']
  | sorting => ['S', 'o', 'r']
  | factorial => ['F', 'a', 'c']

theorem Note.take_text (note : Note) : note.text.take 3 = note.opening := by
  cases note <;> rfl

/-- The text of a note tells which note it is, and of which builtin or depth. -/
theorem Note.text_injective : Function.Injective Note.text := by
  intro a b h
  have hopening : a.opening = b.opening := by rw [← take_text, ← take_text, h]
  cases a with
  | builtin name =>
    cases b with
    | builtin name' =>
      have hname : name = name' := List.append_cancel_left (List.append_cancel_right h)
      rw [hname]
    | _ => simp [opening] at hopening
  | deepLoops depth =>
    cases b with
    | deepLoops depth' =>
      have hdigits : Decimal.ofNat depth = Decimal.ofNat depth' :=
        List.append_cancel_left (List.append_cancel_right h)
      rw [← Decimal.ofDigits_ofNat depth, hdigits, Decimal.ofDigits_ofNat]
    | _ => simp [opening] at hopening
  | _ => cases b <;> first | rfl | simp [opening] at hopening

/-- The rationale of a span whose body is read gives the notes on that body. -/
theorem text_mem_rationale_iff {tag : Text} {lines : List Text} {span : Span} {body : Text}
    (h : span.body? lines = some body) {note : Note} :
    note.text ∈ (analyzeSpan tag lines span).rationale ↔
      note ∈ (Signals.ofBody (builtinsOfTag tag) (familyOfTag tag) span.name body).notes := by
  rw [analyzeSpan, estimateSpan, h]
  simp only [Span.report, Estimate.ofBody, Estimate.ofSignals_notes, List.mem_map]
  constructor
  · rintro ⟨other, hmem, htext⟩
    rwa [← Note.text_injective htext]
  · intro hmem
    exact ⟨note, hmem, rfl⟩

/-! ## The note on an unreadable body -/

theorem Signals.unreadableBody_not_mem_notes (s : Signals) : Note.unreadableBody ∉ s.notes := by
  have hloops : Note.unreadableBody ∉ s.loopNotes := by
    unfold loopNotes
    repeat' split
    all_goals simp
  have hrecursion : Note.unreadableBody ∉ s.recursionNotes := by
    unfold recursionNotes
    repeat' split
    all_goals simp
  simp [notes, hloops, hrecursion]

/-- A rationale is the one of an unreadable body just when the body could not be read. -/
theorem rationale_eq_unreadable_iff (tag : Text) (lines : List Text) (span : Span) :
    (analyzeSpan tag lines span).rationale = [Note.unreadableBody.text] ↔
      span.body? lines = none := by
  rw [analyzeSpan, estimateSpan]
  cases hbody : span.body? lines with
  | none => simp [Span.report, Estimate.unreadable]
  | some body =>
    simp only [Span.report, Estimate.ofBody, Estimate.ofSignals_notes, reduceCtorEq, iff_false]
    intro h
    obtain ⟨note, hnotes, htext⟩ := List.map_eq_singleton_iff.1 h
    have hmem := Signals.unreadableBody_not_mem_notes
      (Signals.ofBody (builtinsOfTag tag) (familyOfTag tag) span.name body)
    rw [hnotes, Note.text_injective htext] at hmem
    exact hmem (List.mem_singleton.2 rfl)

end GrowthEstimate
