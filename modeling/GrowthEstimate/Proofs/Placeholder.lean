import GrowthEstimate.Analysis.Session
import GrowthEstimate.Proofs.Composition
import GrowthEstimate.Proofs.Replay

/-!
# The block that stands for a text

A text without functions, and one with too many lines, is one block under the name of a
placeholder.  The block is judged like the body of a function of that name.  So a call of the
placeholder in it is taken for a self-call, and a call of anything else is not.

* `Signals.exists_recursion_iff`: recursion is noted just when there is a self-call;
* `spans_of_block`: which lines the block takes in;
* `placeholder_recursion`: what is said of the recursion of the block.
-/

namespace GrowthEstimate

open Text

/-! ## Recursion among the notes -/

theorem Signals.exists_recursion_iff {s : Signals} :
    (∃ note ∈ s.notes, note.isRecursion = true) ↔ 0 < s.selfCalls := by
  have hloops : ∀ note ∈ s.loopNotes, note.isRecursion = false := by
    unfold loopNotes
    repeat' split
    all_goals simp [Note.isRecursion]
  obtain ⟨recursion, hrecursion, hkind⟩ := s.recursionNotes_layout
  have hcalls : recursion = none ↔ s.selfCalls = 0 := by
    rw [← recursionNotes_eq_nil_iff, hrecursion, Option.toList_eq_nil_iff]
  simp only [notes, List.mem_append, List.mem_map, List.mem_ite_nil_right, List.mem_singleton,
    hrecursion, Option.mem_toList]
  constructor
  · rintro ⟨note, hnote, hisRecursion⟩
    rcases hnote with ((((⟨b, -, rfl⟩ | hloop) | hsome) | ⟨-, rfl⟩) | ⟨-, rfl⟩) | ⟨-, rfl⟩
    · cases hisRecursion
    · rw [hloops note hloop] at hisRecursion
      cases hisRecursion
    · apply Nat.pos_of_ne_zero
      intro hzero
      rw [hcalls.2 hzero] at hsome
      cases hsome
    · cases hisRecursion
    · cases hisRecursion
    · cases hisRecursion
  · intro hpos
    cases hsome : recursion with
    | none =>
      have hzero := hcalls.1 hsome
      omega
    | some note => exact ⟨note, by simp, hkind note hsome⟩

/-! ## The block -/

def blockLines (source tag : Text) : List Text :=
  if (extract source tag).truncated then (splitLines source).take truncatedLines
  else splitLines source

/-- The block begins with the text, and has its first lines for a body. -/
theorem spans_of_block {source tag : Text}
    (h : (extract source tag).detected = false ∨ (extract source tag).truncated = true) :
    (extract source tag).spans =
        [Span.onLines Span.placeholder 1 (blockLines source tag).length]
      ∧ (Span.onLines Span.placeholder 1 (blockLines source tag).length).bodyLines
          (splitLines source) = blockLines source tag := by
  unfold blockLines
  rcases extractLines_cases (splitLines source) (familyOfTag tag) with
    ⟨-, he⟩ | ⟨-, -, he⟩ | ⟨-, -, he⟩
  · have htruncated : (extract source tag).truncated = true := by
      rw [extract, he]
      rfl
    rw [if_pos htruncated, Span.bodyLines_onLines_one, extract, he, List.length_take, Nat.min_comm]
    simp [List.take_eq_take_iff]
  · have htruncated : ¬ (extract source tag).truncated = true := by
      rw [extract, he]
      exact Bool.false_ne_true
    rw [if_neg htruncated, Span.bodyLines_onLines_one, extract, he, List.take_length]
    exact ⟨rfl, rfl⟩
  · rw [extract, he] at h
    rcases h with h | h
    · cases h
    · cases h

/-- A span whose body is read has a note on recursion just when there is a self-call in the body. -/
theorem exists_recursion_of_body {tag : Text} {lines : List Text} {span : Span} {body : Text}
    (h : span.body? lines = some body) :
    (∃ note : Note, note.text ∈ (analyzeSpan tag lines span).rationale
        ∧ note.isRecursion = true) ↔
      0 < Body.countSelfCalls span.name body := by
  simp only [text_mem_rationale_iff h]
  exact Signals.exists_recursion_iff

/-- A span without a body has no note on recursion. -/
theorem not_exists_recursion_of_unread {tag : Text} {lines : List Text} {span : Span}
    (h : span.body? lines = none) :
    ¬ ∃ note : Note, note.text ∈ (analyzeSpan tag lines span).rationale
      ∧ note.isRecursion = true := by
  rintro ⟨note, hmem, hkind⟩
  rw [(rationale_eq_unreadable_iff tag lines span).2 h, List.mem_singleton] at hmem
  rw [Note.text_injective hmem] at hkind
  cases hkind

/-- In a text without functions, or with too many lines, the one block is looked at for a call of
the placeholder.  The calls found are those in its lines, up to 100, and recursion is noted just
when there is one, whatever else stands in the block. -/
theorem placeholder_recursion (source tag : Text)
    (h : (extract source tag).detected = false ∨ (extract source tag).truncated = true) :
    let lines := splitLines source
    let block := if (extract source tag).truncated then lines.take 1000 else lines
    let calls := countOccurrences "main(".toList (joinLines block)
    ∃ span, (extract source tag).spans = [span] ∧ span = Span.onLines "main".toList 1 block.length
      ∧ (Session.look tag lines ⟨span, .none⟩).2.findings.selfCalls = (min calls 100 : Nat)
      ∧ ((∃ note : Note, note.text ∈ (analyzeSpan tag lines span).rationale
            ∧ note.isRecursion = true) ↔ 0 < calls)
      ∧ (source ≠ [] → source.length ≤ 100000 →
          ∃ report, analyze source tag = .ok report
            ∧ report.functions = [analyzeSpan tag lines span]) := by
  intro lines block calls
  obtain ⟨hspans, hbody⟩ :
      (extract source tag).spans = [Span.onLines Span.placeholder 1 block.length]
        ∧ (Span.onLines Span.placeholder 1 block.length).bodyLines lines = block :=
    spans_of_block h
  have hreport : source ≠ [] → source.length ≤ 100000 →
      ∃ report, analyze source tag = .ok report ∧ report.functions =
        [analyzeSpan tag lines (Span.onLines Span.placeholder 1 block.length)] := by
    intro hne hshort
    have hextract : extractLines (splitLines source) (familyOfTag tag) = extract source tag := rfl
    refine ⟨_, analyze_of_short hne hshort tag, ?_⟩
    rw [analyzeText_of_short hshort]
    simp only [Report.ofFunctions, hextract, hspans]
    rfl
  have hcount : Body.countSelfCalls Span.placeholder (joinLines block) = min calls 100 := rfl
  by_cases hempty : block = []
  · have hunread := Span.body?_eq_none rfl (hbody.trans hempty)
    have hcalls : calls = 0 := by
      simp only [calls, hempty]
      rfl
    refine ⟨_, hspans, rfl, ?_, ?_, hreport⟩
    · simp only [Session.look, hunread, hcalls]
      rfl
    · simp only [not_exists_recursion_of_unread hunread, hcalls, Nat.lt_irrefl]
  · have hread := Span.body?_of_bodyLines rfl hbody hempty
    refine ⟨_, hspans, rfl, ?_, ?_, hreport⟩
    · simp only [Session.look, hread, ← hcount]
      rfl
    · rw [exists_recursion_of_body hread]
      have hname : (Span.onLines Span.placeholder 1 block.length).name = Span.placeholder := rfl
      rw [hname, hcount]
      omega

/-- A script that calls what it has imported under the name of the placeholder. -/
theorem placeholder_recursion_imported :
    let source := "from app import main\n\nmain()\n".toList
    let tag := "python".toList
    (extract source tag).detected = false ∧ ∃ span, (extract source tag).spans = [span]
      ∧ span.name = "main".toList
      ∧ (Session.look tag (splitLines source) ⟨span, .none⟩).2.findings.selfCalls = 1
      ∧ ∃ note : Note, note.text ∈ (analyzeSpan tag (splitLines source) span).rationale
        ∧ note.isRecursion = true := by
  intro source tag
  have hundetected : (extract source tag).detected = false := by decide +kernel
  obtain ⟨span, hspans, hspan, hcalls, hrecursion, -⟩ :=
    placeholder_recursion source tag (Or.inl hundetected)
  refine ⟨hundetected, span, hspans, ?_, hcalls.trans (by decide +kernel), hrecursion.2 ?_⟩
  · rw [hspan]
    rfl
  · decide +kernel

/-- Such a script is no function, and is found to recur. -/
theorem placeholder_recurs :
    let source := "from app import main\n\nmain()\n".toList
    let tag := "python".toList
    let span := Span.onLines "main".toList 1 3
    (extract source tag).detected = false ∧ (extract source tag).spans = [span]
      ∧ (Session.look tag (splitLines source) ⟨span, .none⟩).2.findings.selfCalls = 1
      ∧ ((analyze source tag).toOption.map fun r =>
          r.functions.map fun f => (f.name, f.growth, f.rationale)) =
        some [("main".toList, .linear, [Note.oneCall.text])] := by
  decide +kernel

end GrowthEstimate
