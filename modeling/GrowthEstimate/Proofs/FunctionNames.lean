import GrowthEstimate.Body.SelfCalls
import GrowthEstimate.Proofs.HeaderSpans
import GrowthEstimate.Proofs.Spacing

/-!
# Names of functions

The name that a header gives a function does not start with a blank and has no line feed in it, so
a self-call is a phrase, and self-calls are counted line by line.

* `mem_words`: a word is not empty and holds no blank;
* `isPhrase_callOf_of_nameIn?`: the self-call of every function that a line opens;
* `not_isLineEnd_of_nameIn?`: the name that a line gives is on that line.
-/

namespace GrowthEstimate

namespace Text

theorem mem_words {s word : Text} (h : word ∈ words s) :
    word ≠ [] ∧ ∀ c ∈ word, isBlank c = false := by
  rw [words, List.mem_filter] at h
  exact ⟨by simpa using h.2, not_of_mem_splitOnP h.1⟩

theorem isBlank_of_isIdentifierChar {c : Char} (h : isIdentifierChar c = true) :
    isBlank c = false := by
  cases hblank : isBlank c with
  | false => rfl
  | true =>
    rw [isIdentifierChar, isWordChar_of_isBlank hblank, Bool.false_or, beq_iff_eq] at h
    rw [h] at hblank
    cases hblank

theorem isIdentifierChar_of_isIdentifierStart {c : Char} (h : isIdentifierStart c = true) :
    isIdentifierChar c = true := by
  simp only [isIdentifierStart, Bool.or_eq_true] at h
  rcases h with (halpha | hunderscore) | hdollar
  · have hword : isWordChar c = true := by
      apply isWordChar_of_isAlphanum
      simp [Char.isAlphanum, halpha]
    simp [isIdentifierChar, hword]
  · simp [isIdentifierChar, isWordChar, hunderscore]
  · simp [isIdentifierChar, hdollar]

theorem mem_takeIdentifier? {s name rest : Text} (h : takeIdentifier? s = some (name, rest)) :
    name ≠ [] ∧ ∀ c ∈ name, isBlank c = false := by
  cases s with
  | nil => cases h
  | cons c s =>
    rw [takeIdentifier?] at h
    split at h
    · next hstart =>
      cases h
      refine ⟨List.cons_ne_nil _ _, ?_⟩
      intro d hd
      apply isBlank_of_isIdentifierChar
      rcases List.mem_cons.1 hd with rfl | hd
      · exact isIdentifierChar_of_isIdentifierStart hstart
      · exact List.all_eq_true.1 List.all_takeWhile d hd
    · cases h

end Text

open Text Header Body

/-! ## The names that headers give -/

theorem isPhrase_callOf {name : Text} (hhead : name.head?.any (!isBlank ·) = true)
    (hfeed : '\n' ∉ name) : isPhrase (callOf name) = true := by
  cases name with
  | nil => cases hhead
  | cons c name =>
    have hlast : (callOf (c :: name)).getLast? = some '(' := List.getLast?_concat
    have hparen : (!isBlank '(') = true := rfl
    simp only [List.head?_cons, Option.any_some] at hhead
    simp only [List.mem_cons, not_or] at hfeed
    rw [isPhrase, hlast]
    simp [callOf, hhead, hparen, hfeed]

/-- A name without blanks is as good as any. -/
theorem isPhrase_callOf_of_blankFree {name : Text}
    (h : name ≠ [] ∧ ∀ c ∈ name, isBlank c = false) : isPhrase (callOf name) = true := by
  obtain ⟨hne, hblank⟩ := h
  apply isPhrase_callOf
  · cases name with
    | nil => exact absurd rfl hne
    | cons c name => simp [hblank c (by simp)]
  · intro hfeed
    have hnot := hblank '\n' hfeed
    cases hnot

theorem blankFree_of_bracedName? {line name : Text} (h : bracedName? line = some name) :
    name ≠ [] ∧ ∀ c ∈ name, isBlank c = false := by
  simp only [bracedName?] at h
  split at h
  · split at h
    · next word hlast =>
      split at h
      · cases h
        exact mem_words (List.mem_of_getLast? hlast)
      · cases h
    · cases h
  · cases h

theorem blankFree_of_assignedName? {s name : Text} (h : assignedName? s = some name) :
    name ≠ [] ∧ ∀ c ∈ name, isBlank c = false := by
  rw [assignedName?] at h
  split at h
  · cases h
  · next read rest hread =>
    simp only at h
    split at h
    · cases h
    · split at h
      · cases h
        exact mem_takeIdentifier? hread
      · cases h

theorem blankFree_of_memberName? {s name : Text} (h : memberName? s = some name) :
    name ≠ [] ∧ ∀ c ∈ name, isBlank c = false := by
  rw [memberName?] at h
  split at h
  · cases h
  · next read rest hread =>
    split at h
    · cases h
    · split at h
      · cases h
        exact mem_takeIdentifier? hread
      · cases h

theorem blankFree_of_scriptName? {line name : Text} (h : scriptName? line = some name) :
    name ≠ [] ∧ ∀ c ∈ name, isBlank c = false := by
  rw [scriptName?, Option.or_eq_some_iff, Option.or_eq_some_iff, Option.filter_eq_some_iff,
    Option.filter_eq_some_iff, arrowName?, Option.or_eq_some_iff, Option.bind_eq_some_iff] at h
  rcases h with hbraced | ⟨-, ⟨⟨rest, -, hassigned⟩ | ⟨-, hassigned⟩, -⟩ | ⟨-, hmember, -⟩⟩
  · exact blankFree_of_bracedName? hbraced
  · exact blankFree_of_assignedName? hassigned
  · exact blankFree_of_assignedName? hassigned
  · exact blankFree_of_memberName? hmember

theorem mem_of_mem_afterWord? {word s rest : Text} (h : afterWord? word s = some rest) {c : Char}
    (hc : c ∈ rest) : c ∈ s := by
  rw [afterWord?] at h
  split at h
  · next behind hafter =>
    split at h
    · cases h
      rw [after?_eq_some_iff.1 hafter]
      exact List.mem_append_right _ (mem_trimStart hc)
    · cases h
  · cases h

theorem mem_of_mem_skipWord {word s : Text} {c : Char} (hc : c ∈ skipWord word s) : c ∈ s := by
  rw [skipWord] at hc
  cases hafter : afterWord? word s with
  | none => rwa [hafter] at hc
  | some rest =>
    rw [hafter] at hc
    exact mem_of_mem_afterWord? hafter hc

/-- The name of an indented function may hold blanks, but not at its ends. -/
theorem trimmed_of_indentedName? {line name : Text} (h : indentedName? line = some name) :
    name ≠ [] ∧ ∃ part, (∀ c ∈ part, c ∈ line) ∧ name = trim part := by
  rw [indentedName?] at h
  split at h
  · cases h
  · next rest hrest =>
    split at h
    · simp only at h
      split at h
      · next haccept =>
        cases h
        refine ⟨?_, upTo '(' rest, ?_, rfl⟩
        · intro hnone
          rw [hnone] at haccept
          cases haccept
        · intro c hc
          exact mem_of_mem_skipWord
            (mem_of_mem_afterWord? hrest ((List.takeWhile_sublist _).mem hc))
      · cases h
    · cases h

theorem isPhrase_callOf_of_indentedName? {line name : Text} (hfeed : '\n' ∉ line)
    (h : indentedName? line = some name) : isPhrase (callOf name) = true := by
  obtain ⟨hne, part, hpart, rfl⟩ := trimmed_of_indentedName? h
  apply isPhrase_callOf
  · cases hname : trim part with
    | nil => exact absurd hname hne
    | cons c name => simp [head_trim hname]
  · intro hc
    exact hfeed (hpart _ (mem_trim hc))

theorem isPhrase_callOf_of_nameIn? {family : Family} {line name : Text} (hfeed : '\n' ∉ line)
    (h : family.nameIn? line = some name) : isPhrase (callOf name) = true := by
  cases family with
  | indentation => exact isPhrase_callOf_of_indentedName? hfeed h
  | brace | generic => exact isPhrase_callOf_of_blankFree (blankFree_of_bracedName? h)
  | script => exact isPhrase_callOf_of_blankFree (blankFree_of_scriptName? h)

theorem not_isLineEnd_of_not_isBlank {c : Char} (h : isBlank c = false) : isLineEnd c = false := by
  simp only [isBlank, isLineEnd, Bool.or_eq_false_iff, Bool.and_eq_false_iff,
    decide_eq_false_iff_not, beq_eq_false_iff_ne] at h ⊢
  omega

theorem not_isLineEnd_of_nameIn? {family : Family} {line name : Text}
    (hline : ∀ c ∈ line, isLineEnd c = false) (h : family.nameIn? line = some name) :
    ∀ c ∈ name, isLineEnd c = false := by
  have hblankFree : (name ≠ [] ∧ ∀ c ∈ name, isBlank c = false) →
      ∀ c ∈ name, isLineEnd c = false := fun hname c hc =>
    not_isLineEnd_of_not_isBlank (hname.2 c hc)
  cases family with
  | indentation =>
    obtain ⟨-, part, hpart, rfl⟩ := trimmed_of_indentedName? h
    exact fun c hc => hline c (hpart c (mem_trim hc))
  | brace | generic => exact hblankFree (blankFree_of_bracedName? h)
  | script => exact hblankFree (blankFree_of_scriptName? h)

end GrowthEstimate
