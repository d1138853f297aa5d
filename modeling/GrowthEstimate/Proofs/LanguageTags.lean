import GrowthEstimate.Proofs.Outcomes

/-!
# Language tags

A report depends on the tag of its text through the family and the builtins of the tag alone.  Java
is the only language in braces with builtins, and both of them are sorts: a body in which one occurs
is found to sort in any case, and is judged the same without it.

* `analyzeText_of_sameRules`: tags with the same family and builtins;
* `Signals.verdict_withoutBuiltins`: builtins that a sort comes with change no verdict;
* `analyzeSpan_without`: every language in braces judges as if it had no builtins;
* `analyze_of_tags`: the report on a text under two tags.
-/

namespace GrowthEstimate

open Text

/-! ## Tags with the same rules -/

def Report.withTag (tag : Text) (r : Report) : Report := { r with language := tag }

theorem analyzeText_of_sameRules {tag tag' : Text} (hfamily : familyOfTag tag = familyOfTag tag')
    (hbuiltins : builtinsOfTag tag = builtinsOfTag tag') (source : Text) :
    analyzeText source tag' = (analyzeText source tag).withTag tag' := by
  have hspan : analyzeSpan tag' = analyzeSpan tag := by
    funext lines span
    rw [analyzeSpan, analyzeSpan, estimateSpan, estimateSpan, hfamily, hbuiltins]
  rw [analyzeText, analyzeText, hspan, hfamily]
  split <;> rfl

/-! ## Sorts found twice -/

theorem occursIn_lowercase {token s : Text} (h : occursIn token s = true) :
    occursIn (lowercase token) (lowercase s) = true := by
  obtain ⟨before, after, rfl⟩ := occursIn_iff_part.1 h
  rw [lowercase_append, lowercase_append]
  exact occursIn_iff_part.2 ⟨_, _, rfl⟩

/-- A body in which a builtin of Java occurs sorts. -/
theorem isSorting_of_java {b : Builtin} (hb : b ∈ Language.java.builtins) {body : Text}
    (h : occursIn b.name body = true) : Body.isSorting body = true := by
  have hwords : ∀ b ∈ Language.java.builtins, lowercase b.name ∈ Body.sortingWords := by
    decide +kernel
  exact List.any_eq_true.2 ⟨lowercase b.name, hwords b hb, occursIn_lowercase h⟩

namespace Signals

def withoutBuiltins (s : Signals) : Signals := { s with builtins := [] }

theorem certainty_withoutBuiltins (s : Signals) : s.withoutBuiltins.certainty = s.certainty := rfl

theorem notes_withoutBuiltins (s : Signals) :
    s.notes = s.builtins.map (.builtin ·.name) ++ s.withoutBuiltins.notes := by
  simp only [notes, withoutBuiltins, List.append_assoc, List.map_nil, List.nil_append]
  rfl

/-- Joined with the class of a sort, builtins of that class do not show. -/
theorem join_baseGrowth_withoutBuiltins {s : Signals}
    (h : ∀ b ∈ s.builtins, b.growth = .linearithmic) :
    s.baseGrowth.join .linearithmic = s.withoutBuiltins.baseGrowth.join .linearithmic := by
  have hbuiltins : (Growth.joinAll (s.builtins.map (·.growth))).rank ≤
      Growth.linearithmic.rank := by
    rw [Growth.rank_joinAll_le_iff]
    intro g hg
    obtain ⟨b, hmem, rfl⟩ := List.mem_map.1 hg
    exact Nat.le_of_eq (congrArg Growth.rank (h b hmem))
  rw [baseGrowth, baseGrowth, withoutBuiltins]
  by_cases hsearch : s.loopDepth = 1 ∧ s.binarySearch
  · rw [if_pos hsearch, if_pos hsearch]
  · rw [if_neg hsearch, if_neg hsearch]
    apply Growth.rank_injective
    simp only [Growth.joinAll_append, Growth.rank_join, List.map_nil, List.nil_append]
    omega

/-- Builtins of the class of a sort, in a body that sorts, change no verdict. -/
theorem verdict_withoutBuiltins {s : Signals}
    (h : ∀ b ∈ s.builtins, b.growth = .linearithmic ∧ s.sorting = true) :
    s.verdict = s.withoutBuiltins.verdict := by
  cases hb : s.builtins with
  | nil =>
    have hs : s.withoutBuiltins = s := by rw [withoutBuiltins, ← hb]
    rw [hs]
  | cons b builtins =>
    have hsort : s.sorting = true := (h b (by simp [hb])).2
    have hbase := congrArg Growth.rank
      (join_baseGrowth_withoutBuiltins fun b hmem => (h b hmem).1)
    have hrecursion : s.withoutBuiltins.recursionGrowth? = s.recursionGrowth? := rfl
    apply Growth.rank_injective
    rw [verdict, verdict, hrecursion]
    simp only [Growth.joinAll_append, Growth.joinAll_cons, Growth.joinAll_nil, Growth.rank_join,
      Growth.join_constant, hsort, withoutBuiltins, if_true] at hbase ⊢
    omega

end Signals

/-! ## Languages in braces -/

/-- Whether a tag names a language in braces, or none at all. -/
def isBraceTag (tag : Text) : Bool :=
  match Language.ofTag? tag with
  | none | some .java | some .c | some .cpp | some .rust => true
  | some .javascript | some .typescript | some .python => false

def javaNotes : List Text :=
  ["Arrays.sort".toList, "Collections.sort".toList].map fun name => (Note.builtin name).text

def FunctionReport.without (notes : List Text) (f : FunctionReport) : FunctionReport :=
  { f with rationale := f.rationale.filter fun note => !notes.contains note }

def Report.without (notes : List Text) (r : Report) : Report :=
  { r with functions := r.functions.map (·.without notes) }

section

variable {tag : Text} (h : isBraceTag tag = true)

include h

theorem familyOfTag_of_isBraceTag : familyOfTag tag = .brace ∨ familyOfTag tag = .generic := by
  unfold isBraceTag at h
  unfold familyOfTag
  split at h
  all_goals simp_all [Language.family]

theorem builtinsOfTag_of_isBraceTag :
    builtinsOfTag tag = [] ∨ builtinsOfTag tag = Language.java.builtins := by
  unfold isBraceTag at h
  unfold builtinsOfTag
  split at h
  all_goals simp_all [Language.builtins]

/-- Text is cut into functions by the same rules in every language in braces. -/
theorem extractLines_of_isBraceTag (lines : List Text) :
    extractLines lines (familyOfTag tag) = extractLines lines .generic := by
  rcases familyOfTag_of_isBraceTag h with hfamily | hfamily
  · rw [hfamily]
    rfl
  · rw [hfamily]

theorem withoutBuiltins_ofBody (name body : Text) :
    (Signals.ofBody (builtinsOfTag tag) (familyOfTag tag) name body).withoutBuiltins =
      Signals.ofBody [] .generic name body := by
  rcases familyOfTag_of_isBraceTag h with hfamily | hfamily
  · rw [hfamily]
    rfl
  · rw [hfamily]
    rfl

theorem estimate_of_isBraceTag (name body : Text) :
    let e := Estimate.ofBody (builtinsOfTag tag) (familyOfTag tag) name body
    let plain := Estimate.ofBody [] .generic name body
    e.growth = plain.growth ∧ e.confidence = plain.confidence
      ∧ ∃ builtins : List Builtin, (∀ b ∈ builtins, b ∈ Language.java.builtins)
        ∧ e.notes = builtins.map (.builtin ·.name) ++ plain.notes := by
  intro e plain
  have hsignals := withoutBuiltins_ofBody h name body
  have hjava : ∀ b ∈ (Signals.ofBody (builtinsOfTag tag) (familyOfTag tag) name body).builtins,
      b ∈ Language.java.builtins ∧ occursIn b.name body = true := by
    intro b hb
    obtain ⟨hmem, hoccurs⟩ := List.mem_filter.1 hb
    rcases builtinsOfTag_of_isBraceTag h with hnone | hsome
    · rw [hnone] at hmem
      cases hmem
    · rw [hsome] at hmem
      exact ⟨hmem, hoccurs⟩
  refine ⟨?_, ?_, _, fun b hb => (hjava b hb).1, ?_⟩
  · have hsorts : ∀ b ∈ Language.java.builtins, b.growth = .linearithmic := by decide
    rw [Estimate.ofBody_growth, Estimate.ofBody_growth, ← hsignals]
    apply Signals.verdict_withoutBuiltins
    intro b hb
    exact ⟨hsorts b (hjava b hb).1, isSorting_of_java (hjava b hb).1 (hjava b hb).2⟩
  · rw [Estimate.ofBody_confidence, Estimate.ofBody_confidence, ← hsignals,
      Signals.certainty_withoutBuiltins]
  · simp only [e, plain, Estimate.ofBody, Estimate.ofSignals_notes, ← hsignals]
    exact Signals.notes_withoutBuiltins _

end

theorem Report.without_ofFunctions (notes : List Text) (tag : Text)
    (functions : List FunctionReport) (warnings : List Text) :
    (Report.ofFunctions tag functions warnings).without notes =
      Report.ofFunctions tag (functions.map (·.without notes)) warnings := by
  have hoverall : overallOf (functions.map (·.without notes)) = overallOf functions := by
    rw [overallOf_eq_joinAll, overallOf_eq_joinAll, List.map_map]
    rfl
  rw [ofFunctions, ofFunctions, hoverall]
  rfl

/-- The notes on builtins of Java are gone, and nothing else is. -/
theorem filter_javaNotes {builtins : List Builtin}
    (h : ∀ b ∈ builtins, b ∈ Language.java.builtins) :
    ((builtins.map fun b => Note.builtin b.name).map Note.text).filter
      (fun note => !javaNotes.contains note) = [] := by
  have hjava : ∀ b ∈ Language.java.builtins, (Note.builtin b.name).text ∈ javaNotes := by
    decide +kernel
  rw [List.filter_eq_nil_iff, List.forall_mem_map, List.forall_mem_map]
  intro b hb
  simpa using hjava b (h b hb)

/-- An unknown tag stands for all languages in braces. -/
theorem analyzeSpan_without {tag : Text} (h : isBraceTag tag = true) (lines : List Text)
    (span : Span) :
    (analyzeSpan tag lines span).without javaNotes =
      (analyzeSpan [] lines span).without javaNotes := by
  have hunknown : Language.ofTag? [] = none := by decide +kernel
  have hbuiltins : builtinsOfTag [] = [] := builtinsOfTag_eq_nil hunknown
  have hfamily : familyOfTag [] = .generic := by
    rw [familyOfTag, hunknown]
    rfl
  rw [analyzeSpan, analyzeSpan, estimateSpan, estimateSpan]
  cases span.body? lines with
  | none => rfl
  | some body =>
    obtain ⟨hgrowth, hconfidence, builtins, hjava, hnotes⟩ :=
      estimate_of_isBraceTag h span.name body
    simp only [hbuiltins, hfamily, FunctionReport.without, Span.report, hgrowth, hconfidence,
      hnotes, List.map_append, List.filter_append, filter_javaNotes hjava, List.nil_append]

theorem analyzeText_without {tag : Text} (h : isBraceTag tag = true) (source : Text) :
    (analyzeText source tag).without javaNotes =
      ((analyzeText source []).without javaNotes).withTag tag := by
  have hunknown : isBraceTag [] = true := by decide +kernel
  have hspans : ∀ lines : List Text,
      extractLines lines (familyOfTag tag) = extractLines lines (familyOfTag []) := by
    intro lines
    rw [extractLines_of_isBraceTag h, extractLines_of_isBraceTag hunknown]
  have hspan : (·.without javaNotes) ∘ analyzeSpan tag (splitLines source) =
      (·.without javaNotes) ∘ analyzeSpan [] (splitLines source) :=
    funext fun span => analyzeSpan_without h (splitLines source) span
  rw [analyzeText, analyzeText]
  split
  · rfl
  · simp only [hspans, Report.without_ofFunctions, List.map_map, hspan]
    rfl

/-! ## Two tags -/

/-- What a text comes to under two tags, from what its reports have in common. -/
theorem analyze_map_eq {source tag tag' : Text} {view view' : Report → Report}
    (h : view (analyzeText source tag') = view' (analyzeText source tag)) :
    (analyze source tag').map view = (analyze source tag).map view' := by
  rw [analyze, analyze]
  cases validate hardLimit source with
  | error reason => simp only [Except.map]
  | ok _ => simp only [Except.map, h]

/-- The tag of a text counts by its family and its builtins alone, so two tags of one language, or
of JavaScript and TypeScript, differ in the tag that the report gives back.  Among the languages in
braces the builtins do not count either, but for the notes on those of Java. -/
theorem analyze_of_tags (source tag tag' : Text) :
    (familyOfTag tag = familyOfTag tag' → builtinsOfTag tag = builtinsOfTag tag' →
        analyze source tag' = (analyze source tag).map (·.withTag tag'))
      ∧ (isBraceTag tag = true → isBraceTag tag' = true →
        (analyze source tag').map (·.without javaNotes) =
          (analyze source tag).map fun r => (r.without javaNotes).withTag tag')
      ∧ (Language.ofTag? tag = Language.ofTag? tag'
          ∨ Language.ofTag? tag ∈ [some .javascript, some .typescript]
            ∧ Language.ofTag? tag' ∈ [some .javascript, some .typescript] →
        analyze source tag' = (analyze source tag).map (·.withTag tag')) := by
  have hrules : familyOfTag tag = familyOfTag tag' → builtinsOfTag tag = builtinsOfTag tag' →
      analyze source tag' = (analyze source tag).map (·.withTag tag') := by
    intro hfamily hbuiltins
    have hsame : (analyze source tag').map id = (analyze source tag).map (·.withTag tag') :=
      analyze_map_eq (analyzeText_of_sameRules hfamily hbuiltins source)
    rwa [Except.map_id] at hsame
  refine ⟨hrules, ?_, ?_⟩
  · intro h h'
    apply analyze_map_eq
    rw [analyzeText_without h', analyzeText_without h]
    rfl
  · rintro (hsame | ⟨hscript, hscript'⟩)
    · apply hrules
      · rw [familyOfTag, familyOfTag, hsame]
      · rw [builtinsOfTag, builtinsOfTag, hsame]
    · have hfamily : ∀ l ∈ [some Language.javascript, some .typescript],
          (l.map Language.family).getD .generic = .script := by decide
      have hbuiltins : ∀ l ∈ [some Language.javascript, some .typescript],
          (l.map Language.builtins).getD [] = Language.javascript.builtins := by decide
      apply hrules
      · rw [familyOfTag, familyOfTag, hfamily _ hscript, hfamily _ hscript']
      · rw [builtinsOfTag, builtinsOfTag, hbuiltins _ hscript, hbuiltins _ hscript']

/-- A sort in front of a binary search, which Java has a note more on. -/
theorem analyze_of_tags_search :
    let source := ("int f(int[] a) \x7b\n  Arrays.sort(a);\n"
      ++ "  while (low < high) mid = (low + high) / 2;\n\x7d\n").toList
    familyOfTag "c".toList = familyOfTag "rs".toList
      ∧ builtinsOfTag "c".toList = builtinsOfTag "rs".toList
      ∧ analyze source "rs".toList = (analyze source "c".toList).map (·.withTag "rs".toList)
      ∧ isBraceTag "Java".toList = true ∧ isBraceTag "go".toList = true
      ∧ (analyze source "go".toList).map (·.without javaNotes) =
        (analyze source "Java".toList).map (fun r => (r.without javaNotes).withTag "go".toList)
      ∧ Language.ofTag? "JS".toList ∈ [some .javascript, some .typescript]
      ∧ Language.ofTag? "ts".toList ∈ [some .javascript, some .typescript]
      ∧ analyze source "ts".toList = (analyze source "JS".toList).map (·.withTag "ts".toList) := by
  intro source
  have hfamily : familyOfTag "c".toList = familyOfTag "rs".toList := by decide +kernel
  have hbuiltins : builtinsOfTag "c".toList = builtinsOfTag "rs".toList := by decide +kernel
  have hjava : isBraceTag "Java".toList = true := by decide +kernel
  have hgo : isBraceTag "go".toList = true := by decide +kernel
  have hjs : Language.ofTag? "JS".toList ∈ [some Language.javascript, some .typescript] := by
    decide +kernel
  have hts : Language.ofTag? "ts".toList ∈ [some Language.javascript, some .typescript] := by
    decide +kernel
  exact ⟨hfamily, hbuiltins, (analyze_of_tags source _ _).1 hfamily hbuiltins, hjava, hgo,
    (analyze_of_tags source _ _).2.1 hjava hgo, hjs, hts,
    (analyze_of_tags source _ _).2.2 (Or.inr ⟨hjs, hts⟩)⟩

end GrowthEstimate
