import GrowthEstimate.Proofs.Rationale
import Mathlib.Data.List.Nodup

/-!
# Estimates read back from their rationales

Every step that builds an estimate leaves its mark on the notes.  Going through the notes in their
order and taking each at its word builds the same estimate again, in any language, so two reports
with one rationale agree.

* `ofSignals_eq_replay`: an estimate is what its notes come to;
* `estimateSpan_eq_of_rationale`: spans with one rationale have one estimate;
* `loopNotes_layout`, `notes_nodup`: the order of the notes, and that none is given twice;
* `rationale_explains`: both for the reports on any two spans.
-/

namespace GrowthEstimate

/-! ## Builtins by name -/

/-- Tables that share a name agree on its class. -/
theorem Language.growthOfBuiltin_eq (l : Language) :
    ∀ b ∈ l.builtins, growthOfBuiltin b.name = b.growth := by
  cases l <;> decide +kernel

theorem Language.builtins_nodup (l : Language) : (l.builtins.map (·.name)).Nodup := by
  cases l <;> decide +kernel

theorem mem_builtinsOfTag {tag : Text} {b : Builtin} (h : b ∈ builtinsOfTag tag) :
    ∃ l : Language, b ∈ l.builtins ∧ builtinsOfTag tag = l.builtins := by
  unfold builtinsOfTag at h ⊢
  cases hl : Language.ofTag? tag with
  | none =>
    rw [hl] at h
    cases h
  | some l =>
    rw [hl] at h
    exact ⟨l, h, rfl⟩

theorem growthOfBuiltin_eq {tag : Text} {b : Builtin} (h : b ∈ builtinsOfTag tag) :
    growthOfBuiltin b.name = b.growth := by
  obtain ⟨l, hb, -⟩ := mem_builtinsOfTag h
  exact l.growthOfBuiltin_eq b hb

theorem builtinsOfTag_nodup (tag : Text) : ((builtinsOfTag tag).map (·.name)).Nodup := by
  unfold builtinsOfTag
  cases Language.ofTag? tag with
  | none => exact List.nodup_nil
  | some l => exact l.builtins_nodup

/-! ## Replaying notes -/

namespace Estimate

/-- The estimate that notes come to. -/
def replay (notes : List Note) : Estimate := notes.foldl noted initial

theorem withBuiltins_eq {builtins : List Builtin}
    (h : ∀ b ∈ builtins, growthOfBuiltin b.name = b.growth) (e : Estimate) :
    e.withBuiltins builtins = (builtins.map (.builtin ·.name)).foldl noted e := by
  unfold withBuiltins
  induction builtins generalizing e with
  | nil => rfl
  | cons b builtins ih =>
    have hb : growthOfBuiltin b.name = b.growth := h b (by simp)
    have hnoted : e.noted (.builtin b.name) = e.joined b.growth (.builtin b.name) := by
      rw [noted, hb]
    rw [List.foldl_cons, List.map_cons, List.foldl_cons, hnoted,
      ih fun c hc => h c (by simp [hc])]

/-- Every one of the six steps is a replay of the notes that it leaves. -/
theorem ofSignals_eq_replay {s : Signals}
    (h : ∀ b ∈ s.builtins, growthOfBuiltin b.name = b.growth) : ofSignals s = replay s.notes := by
  rw [ofSignals, withFactorial_eq, withSorting_eq, withDynamicProgramming_eq, withRecursion_eq,
    withLoops_eq, withBuiltins_eq h, replay, Signals.notes]
  simp only [List.foldl_append]

end Estimate

/-- The signals of the body of a function, in the language of a tag. -/
theorem estimateSpan_of_body {tag : Text} {lines : List Text} {span : Span} {body : Text}
    (h : span.body? lines = some body) :
    (estimateSpan tag lines span).notes =
      (Signals.ofBody (builtinsOfTag tag) (familyOfTag tag) span.name body).notes := by
  rw [estimateSpan, h]
  exact Estimate.ofSignals_notes _

theorem estimateSpan_eq_replay (tag : Text) (lines : List Text) (span : Span) :
    estimateSpan tag lines span = Estimate.replay (estimateSpan tag lines span).notes := by
  cases hbody : span.body? lines with
  | none =>
    rw [estimateSpan, hbody]
    rfl
  | some body =>
    rw [estimateSpan_of_body hbody, estimateSpan, hbody]
    apply Estimate.ofSignals_eq_replay
    intro b hb
    exact growthOfBuiltin_eq ((List.mem_filter.1 hb).1)

theorem estimateSpan_eq_of_rationale {tag tag' : Text} {lines lines' : List Text}
    {span span' : Span}
    (h : (analyzeSpan tag lines span).rationale = (analyzeSpan tag' lines' span').rationale) :
    estimateSpan tag lines span = estimateSpan tag' lines' span' := by
  have hnotes : (estimateSpan tag lines span).notes = (estimateSpan tag' lines' span').notes :=
    List.map_injective_iff.2 Note.text_injective h
  rw [estimateSpan_eq_replay tag, hnotes, ← estimateSpan_eq_replay]

/-! ## The order of the notes -/

/-- Whether a note says how many loops there are; that there is neither a loop nor a self-call is
said in its place. -/
def Note.isLoop : Note → Bool
  | neitherLoopNorCall | oneLoop | twoLoops | threeLoops | deepLoops _ => true
  | _ => false

def Note.isRecursion : Note → Bool
  | tailRecursion | divideAndConquer | fibonacciLike | severalCalls | oneCall => true
  | _ => false

namespace Signals

/-- At most one note on loops, and behind a single loop the one that it is a binary search. -/
theorem loopNotes_layout (s : Signals) :
    ∃ (loop : Option Note) (search : List Note), s.loopNotes = loop.toList ++ search
      ∧ (∀ note ∈ loop, note.isLoop = true)
      ∧ (loop = none ↔ s.loopDepth = 0 ∧ 0 < s.selfCalls)
      ∧ (search = [] ∨ search = [.binarySearch] ∧ loop = some .oneLoop) := by
  unfold loopNotes
  rcases s.loopDepth with _ | _ | _ | _ | depth
  · by_cases hcalls : s.selfCalls = 0
    · exact ⟨some .neitherLoopNorCall, [], by simp [hcalls], by simp [Note.isLoop],
        by simp [hcalls], Or.inl rfl⟩
    · have hsome : 0 < s.selfCalls := by omega
      exact ⟨none, [], by simp [hcalls], by simp, by simp [hsome], Or.inl rfl⟩
  · cases s.binarySearch
    · exact ⟨some .oneLoop, [], rfl, by simp [Note.isLoop], by simp, Or.inl rfl⟩
    · exact ⟨some .oneLoop, [.binarySearch], rfl, by simp [Note.isLoop], by simp,
        Or.inr ⟨rfl, rfl⟩⟩
  · exact ⟨some .twoLoops, [], rfl, by simp [Note.isLoop], by simp, Or.inl rfl⟩
  · exact ⟨some .threeLoops, [], rfl, by simp [Note.isLoop], by simp, Or.inl rfl⟩
  · exact ⟨some (.deepLoops (depth + 4)), [], rfl, by simp [Note.isLoop], by simp, Or.inl rfl⟩

theorem recursionNotes_layout (s : Signals) :
    ∃ recursion : Option Note, s.recursionNotes = recursion.toList
      ∧ ∀ note ∈ recursion, note.isRecursion = true := by
  have hlength : s.recursionNotes.length ≤ 1 := by
    unfold recursionNotes
    repeat' split
    all_goals simp
  have hkind : ∀ note ∈ s.recursionNotes, note.isRecursion = true := by
    unfold recursionNotes
    repeat' split
    all_goals simp [Note.isRecursion]
  refine ⟨s.recursionNotes.head?, ?_, fun note hnote => hkind note (List.mem_of_mem_head? hnote)⟩
  cases hnotes : s.recursionNotes with
  | nil => rfl
  | cons note rest =>
    rw [hnotes, List.length_cons] at hlength
    rw [List.length_eq_zero_iff.1 (by omega : rest.length = 0)]
    rfl

theorem recursionNotes_eq_nil_iff {s : Signals} : s.recursionNotes = [] ↔ s.selfCalls = 0 := by
  unfold recursionNotes
  repeat' split
  all_goals simp_all

/-- A body without a note on its loops has self-calls, and those are noted. -/
theorem notes_ne_nil (s : Signals) : s.notes ≠ [] := by
  obtain ⟨loop, search, hloops, -, hloop, -⟩ := s.loopNotes_layout
  intro hnone
  simp only [notes, List.append_eq_nil_iff] at hnone
  obtain ⟨⟨⟨⟨⟨-, hnoloops⟩, hnorecursion⟩, -⟩, -⟩, -⟩ := hnone
  rw [hnoloops, eq_comm, List.append_eq_nil_iff] at hloops
  have hcalls := (hloop.1 (Option.toList_eq_nil_iff.1 hloops.1)).2
  have hnocalls := recursionNotes_eq_nil_iff.1 hnorecursion
  omega

/-- The notes in their groups: builtins, loops, recursion, and what may stand at the end. -/
theorem notes_layout (s : Signals) :
    ∃ (loop : Option Note) (search : List Note) (recursion : Option Note) (ending : List Note),
      s.notes = s.builtins.map (.builtin ·.name) ++ loop.toList ++ search ++ recursion.toList
          ++ ending
        ∧ (∀ note ∈ loop, note.isLoop = true)
        ∧ (loop = none ↔ s.loopDepth = 0 ∧ 0 < s.selfCalls)
        ∧ (search = [] ∨ search = [.binarySearch] ∧ loop = some .oneLoop)
        ∧ (∀ note ∈ recursion, note.isRecursion = true)
        ∧ ending.Sublist [.dynamicProgramming, .sorting, .factorial] := by
  obtain ⟨loop, search, hloops, hkind, hloop, hsearch⟩ := s.loopNotes_layout
  obtain ⟨recursion, hrecursion, hrecursionKind⟩ := s.recursionNotes_layout
  refine ⟨loop, search, recursion,
    (if s.dynamicProgramming then [.dynamicProgramming] else [])
      ++ (if s.sorting then [.sorting] else []) ++ (if s.factorial then [.factorial] else []),
    ?_, hkind, hloop, hsearch, hrecursionKind, ?_⟩
  · rw [notes, hloops, hrecursion]
    simp only [List.append_assoc]
  · cases s.dynamicProgramming <;> cases s.sorting <;> cases s.factorial <;> decide

/-- Every note that can stand behind the builtins, in order. -/
def laterNotes (depth : Nat) : List Note :=
  [.neitherLoopNorCall, .oneLoop, .binarySearch, .twoLoops, .threeLoops, .deepLoops depth,
    .tailRecursion, .divideAndConquer, .fibonacciLike, .severalCalls, .oneCall,
    .dynamicProgramming, .sorting, .factorial]

theorem notes_sublist (s : Signals) :
    s.notes.Sublist (s.builtins.map (.builtin ·.name) ++ laterNotes s.loopDepth) := by
  have hloops : s.loopNotes.Sublist
      [.neitherLoopNorCall, .oneLoop, .binarySearch, .twoLoops, .threeLoops,
        .deepLoops s.loopDepth] := by
    unfold loopNotes
    repeat' split
    all_goals simp
  have hrecursion : s.recursionNotes.Sublist
      [.tailRecursion, .divideAndConquer, .fibonacciLike, .severalCalls, .oneCall] := by
    unfold recursionNotes
    repeat' split
    all_goals simp
  have hone : ∀ (b : Bool) (note : Note), (if b then [note] else []).Sublist [note] := by
    intro b note
    cases b <;> simp
  have hall := (((((List.Sublist.refl (s.builtins.map (.builtin ·.name))).append hloops).append
    hrecursion).append (hone s.dynamicProgramming .dynamicProgramming)).append
    (hone s.sorting .sorting)).append (hone s.factorial .factorial)
  simpa [notes, laterNotes] using hall

/-- No note is given twice when the builtins have different names. -/
theorem notes_nodup {s : Signals} (h : (s.builtins.map (·.name)).Nodup) : s.notes.Nodup := by
  refine s.notes_sublist.nodup (List.nodup_append.2 ⟨?_, by simp [laterNotes], ?_⟩)
  · have hnames : s.builtins.map (.builtin ·.name) =
        (s.builtins.map (·.name)).map Note.builtin := by simp
    rw [hnames]
    exact h.map fun _ _ heq => Note.builtin.inj heq
  · intro note hnote other hother heq
    obtain ⟨b, -, rfl⟩ := List.mem_map.1 hnote
    rw [← heq] at hother
    simp [laterNotes] at hother

end Signals

/-! ## The rationale of a report -/

/-- The rationale of a report explains it: any report with the same rationale, on whatever span in
whatever language, has the same class and confidence.  No reason is missing or given twice.  A body
that cannot be read is the only reason where it is one; the reasons read off a body are its
builtins in the order of the language's table, at most one note on its loops, with the note on
binary search behind that on a single loop, at most one note on its recursion, and at the end
dynamic programming, sorting and factorial. -/
theorem rationale_explains (tag : Text) (lines : List Text) (span : Span) :
    let report := analyzeSpan tag lines span
    (∀ (tag' : Text) (lines' : List Text) (span' : Span),
        report.rationale = (analyzeSpan tag' lines' span').rationale →
          report.growth = (analyzeSpan tag' lines' span').growth
            ∧ report.confidence = (analyzeSpan tag' lines' span').confidence)
      ∧ report.rationale ≠ []
      ∧ report.rationale.Nodup
      ∧ (report.rationale = [Note.unreadableBody.text]
        ∨ ∃ body, span.body? lines = some body ∧
          let s := Signals.ofBody (builtinsOfTag tag) (familyOfTag tag) span.name body
          ∃ (builtins : List Note) (loop : Option Note) (search : List Note)
            (recursion : Option Note) (ending : List Note),
            report.rationale =
                (builtins ++ loop.toList ++ search ++ recursion.toList ++ ending).map Note.text
              ∧ builtins.Sublist ((builtinsOfTag tag).map (.builtin ·.name))
              ∧ (∀ note ∈ loop, note.isLoop = true)
              ∧ (loop = none ↔ s.loopDepth = 0 ∧ 0 < s.selfCalls)
              ∧ (search = [] ∨ search = [.binarySearch] ∧ loop = some .oneLoop)
              ∧ (∀ note ∈ recursion, note.isRecursion = true)
              ∧ ending.Sublist [.dynamicProgramming, .sorting, .factorial]) := by
  intro report
  have hexplains : ∀ (tag' : Text) (lines' : List Text) (span' : Span),
      report.rationale = (analyzeSpan tag' lines' span').rationale →
        report.growth = (analyzeSpan tag' lines' span').growth
          ∧ report.confidence = (analyzeSpan tag' lines' span').confidence := by
    intro tag' lines' span' h
    have hestimate := estimateSpan_eq_of_rationale h
    exact ⟨congrArg Estimate.growth hestimate, congrArg Estimate.confidence hestimate⟩
  refine ⟨hexplains, ?_⟩
  cases hbody : span.body? lines with
  | none =>
    have hunreadable : report.rationale = [Note.unreadableBody.text] :=
      (rationale_eq_unreadable_iff tag lines span).2 hbody
    rw [hunreadable]
    exact ⟨by simp, by simp, Or.inl rfl⟩
  | some body =>
    let s := Signals.ofBody (builtinsOfTag tag) (familyOfTag tag) span.name body
    have hrationale : report.rationale = s.notes.map Note.text := by
      show (estimateSpan tag lines span).notes.map Note.text = _
      rw [estimateSpan_of_body hbody]
    have hbuiltins : s.builtins.Sublist (builtinsOfTag tag) := List.filter_sublist
    have hnames : (s.builtins.map (·.name)).Nodup :=
      (hbuiltins.map _).nodup (builtinsOfTag_nodup tag)
    refine ⟨?_, ?_, Or.inr ⟨body, rfl, ?_⟩⟩
    · rw [hrationale]
      simp [s.notes_ne_nil]
    · rw [hrationale]
      exact (Signals.notes_nodup hnames).map Note.text_injective
    · obtain ⟨loop, search, recursion, ending, hnotes, hkind, hloop, hsearch, hrecursion, hending⟩ :=
        s.notes_layout
      refine ⟨s.builtins.map (.builtin ·.name), loop, search, recursion, ending, ?_,
        hbuiltins.map _, hkind, hloop, hsearch, hrecursion, hending⟩
      rw [hrationale, hnotes]

/-- One rationale in two languages, read by different rules and off different tables. -/
theorem rationale_explains_across_languages :
    let indented := ["def f(a):", "  for x in a:", "    x.sort()"].map String.toList
    let script := ["function g(a) \x7b", "  for (const x of a) \x7b", "    x.sort();", "  \x7d",
      "\x7d"].map String.toList
    let f := analyzeSpan "python".toList indented (Span.onLines "f".toList 2 3)
    let g := analyzeSpan "js".toList script (Span.onLines "g".toList 2 5)
    f.rationale = g.rationale ∧ f.growth = g.growth ∧ f.confidence = g.confidence := by
  intro indented script f g
  have hsame : f.rationale = g.rationale := by decide +kernel
  obtain ⟨hexplains, -⟩ :=
    rationale_explains "python".toList indented (Span.onLines "f".toList 2 3)
  exact ⟨hsame, hexplains _ _ _ hsame⟩

end GrowthEstimate
