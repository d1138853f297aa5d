import GrowthEstimate.Body.Idioms
import GrowthEstimate.Proofs.Occurrences

/-!
# Halving and the blanks between words

A halving is read across blanks and line ends, and it makes no difference how many of them stand
between two words or which.  So whether a body halves something is known from its words.  A token
without blanks stands within one word, so the idioms that a halving goes into are known from the
words as well.

* `not_of_mem_splitOnP`: the pieces of a split hold nothing that it was split at;
* `blankInduction`: a text is a word, or a word in front of a blank and a shorter text;
* `words_append_blank`: words on the two sides of a blank;
* `words_trim`, `words_joinLines`: blanks around a text hold no word, and joined lines have the
  words of the lines;
* `countOccurrences_words`: a token without blanks is counted word by word;
* `halvesFrom_singleSpaced`: one space between each two words is enough;
* `hasHalving_eq_of_words`: two bodies with the same words both halve or neither does;
* `isBinarySearch_eq_of_words`, `isDivideAndConquer_eq_of_words`: so it is with what they search
  and merge.
-/

namespace GrowthEstimate

namespace Text

/-! ## Words -/

/-- No piece of a split holds a character that it was split at. -/
theorem not_of_mem_splitOnP {p : Char → Bool} {s piece : Text} (h : piece ∈ s.splitOnP p) :
    ∀ c ∈ piece, p c = false := by
  induction s generalizing piece with
  | nil =>
    rw [List.splitOnP_nil, List.mem_singleton] at h
    simp [h]
  | cons c s ih =>
    obtain ⟨first, rest, hsplit⟩ := List.exists_cons_of_ne_nil (List.splitOnP_ne_nil p s)
    rw [hsplit] at ih
    rw [List.splitOnP_cons_eq_if_modifyHead, hsplit] at h
    cases hc : p c with
    | true =>
      rw [if_pos hc] at h
      rcases List.mem_cons.1 h with rfl | hrest
      · simp
      · exact ih hrest
    | false =>
      simp only [hc, Bool.false_eq_true, if_false, List.modifyHead_cons, List.mem_cons] at h
      rcases h with rfl | hrest
      · simpa [hc] using ih (List.mem_cons_self ..)
      · exact ih (List.mem_cons_of_mem _ hrest)

/-- Induction over the words of a text and the blanks behind them.  The word in front may be empty,
so every blank is met. -/
@[elab_as_elim]
theorem blankInduction {motive : Text → Prop}
    (word : ∀ w : Text, (∀ c ∈ w, isBlank c = false) → motive w)
    (blank : ∀ (w : Text) (c : Char) (s : Text), (∀ d ∈ w, isBlank d = false) →
      isBlank c = true → motive s → motive (w ++ c :: s)) (s : Text) : motive s := by
  -- the word in front grows with every character that is no blank
  have hfront : ∀ w : Text, (∀ c ∈ w, isBlank c = false) → motive (w ++ s) := by
    induction s with
    | nil => simpa using word
    | cons c s ih =>
      intro w hw
      cases hc : isBlank c with
      | true => exact blank w c s hw hc (ih [] (by simp))
      | false =>
        rw [List.append_cons]
        refine ih (w ++ [c]) (List.forall_mem_append.2 ⟨hw, ?_⟩)
        simpa using hc
  exact hfront [] (by simp)

theorem words_of_plain {word : Text} (hne : word ≠ []) (h : ∀ c ∈ word, isBlank c = false) :
    words word = [word] := by
  simp [words, List.splitOnP_eq_singleton h, hne]

theorem words_append_blank {c : Char} (h : isBlank c = true) (s t : Text) :
    words (s ++ c :: t) = words s ++ words t := by
  rw [words, List.splitOnP_append_cons s t h, List.filter_append]
  rfl

theorem words_cons_blank {c : Char} (h : isBlank c = true) (s : Text) :
    words (c :: s) = words s :=
  words_append_blank h [] s

theorem words_pad {pad : Text} (h : ∀ c ∈ pad, isBlank c = true) (s : Text) :
    words (pad ++ s) = words s := by
  induction pad with
  | nil => rfl
  | cons c pad ih =>
    rw [List.cons_append, words_cons_blank (h c (by simp))]
    exact ih fun d hd => h d (by simp [hd])

theorem words_append_pad {pad : Text} (h : ∀ c ∈ pad, isBlank c = true) (s : Text) :
    words (s ++ pad) = words s := by
  cases pad with
  | nil => rw [List.append_nil]
  | cons c pad =>
    have hrest : ∀ d ∈ pad, isBlank d = true := fun d hd => h d (by simp [hd])
    have hpad : words pad = [] := by
      have hnone := words_pad hrest []
      rwa [List.append_nil] at hnone
    rw [words_append_blank (h c (by simp)), hpad, List.append_nil]

theorem words_trim (s : Text) : words (trim s) = words s := by
  obtain ⟨pad, pad', hpad, hpad', hs⟩ := exists_margins s
  calc words (trim s) = words (pad ++ trim s ++ pad') := by
        rw [words_append_pad hpad', words_pad hpad]
    _ = words s := congrArg words hs.symm

theorem words_joinLines (lines : List Text) : words (joinLines lines) = lines.flatMap words := by
  induction lines with
  | nil => rfl
  | cons line rest ih =>
    cases rest with
    | nil => simp [joinLines]
    | cons next rest =>
      have hfeed : isBlank '\n' = true := rfl
      rw [joinLines_cons_cons, ← List.append_cons, words_append_blank hfeed, ih]
      rfl

theorem flatMap_words_inked (lines : List Text) :
    (inked lines).flatMap words = lines.flatMap words := by
  induction lines with
  | nil => rfl
  | cons line rest ih =>
    rw [List.flatMap_cons, ← ih, ← words_trim line]
    by_cases hblank : trim line = []
    · rw [inked_cons_of_blank hblank, hblank]
      rfl
    · rw [inked_cons_of_not_blank hblank, List.flatMap_cons]

theorem words_joinLines_eq_of_inked {lines lines' : List Text} (h : inked lines = inked lines') :
    words (joinLines lines) = words (joinLines lines') := by
  rw [words_joinLines, words_joinLines, ← flatMap_words_inked, h, flatMap_words_inked]

/-! ## Tokens in words -/

/-- Whether a text can stand within a word: it is not empty and holds no blank. -/
def isUnbroken (token : Text) : Bool := !token.isEmpty && token.all (!isBlank ·)

section

variable {token : Text}

theorem ne_nil_of_isUnbroken (h : isUnbroken token = true) : token ≠ [] := by
  rintro rfl
  cases h

theorem not_mem_of_isUnbroken (h : isUnbroken token = true) {c : Char} (hc : isBlank c = true) :
    c ∉ token := by
  simp only [isUnbroken, Bool.and_eq_true, List.all_eq_true, Bool.not_eq_true'] at h
  intro hmem
  rw [h.2 c hmem] at hc
  cases hc

theorem countOccurrences_append_blank (h : isUnbroken token = true) {c : Char}
    (hc : isBlank c = true) (s t : Text) :
    countOccurrences token (s ++ c :: t) = countOccurrences token s + countOccurrences token t := by
  have hmem := not_mem_of_isUnbroken h hc
  have hfront : ∀ d ∈ token.head?, d ∉ [c] := by
    intro d hd hdc
    rw [List.mem_singleton.1 hdc] at hd
    exact hmem (List.mem_of_head? hd)
  have hbehind : countOccurrences token (c :: t) = countOccurrences token t := by
    simpa using countOccurrences_around (ne_nil_of_isUnbroken h) hfront
      (show ∀ d ∈ token.getLast?, d ∉ [] by simp) t
  rw [countOccurrences_append (staysWithin_of_not_mem hmem s t), hbehind]

/-- No occurrence reaches across a blank, so a text is counted word by word. -/
theorem countOccurrences_words (h : isUnbroken token = true) (s : Text) :
    countOccurrences token s = ((words s).map (countOccurrences token)).sum := by
  have hword : ∀ w : Text, (∀ c ∈ w, isBlank c = false) →
      countOccurrences token w = ((words w).map (countOccurrences token)).sum := by
    intro w hw
    by_cases hnil : w = []
    · rw [hnil]
      rfl
    · simp [words_of_plain hnil hw]
  induction s using blankInduction with
  | word w hw => exact hword w hw
  | blank w c s hw hc ih =>
    rw [countOccurrences_append_blank h hc, words_append_blank hc, List.map_append,
      List.sum_append, ← ih, ← hword w hw]

theorem occursIn_eq_of_words (h : isUnbroken token = true) {s s' : Text}
    (hwords : words s = words s') : occursIn token s = occursIn token s' := by
  have hne := ne_nil_of_isUnbroken h
  rw [Bool.eq_iff_iff, occursIn_iff_count_pos hne, occursIn_iff_count_pos hne,
    countOccurrences_words h s, hwords, ← countOccurrences_words h]

theorem anyOccursIn_eq_of_words {tokens : List Text}
    (h : ∀ token ∈ tokens, isUnbroken token = true) {s s' : Text} (hwords : words s = words s') :
    anyOccursIn tokens s = anyOccursIn tokens s' :=
  anyOccursIn_congr fun token htoken => occursIn_eq_of_words (h token htoken) hwords

end

/-! ## One space between words -/

def spaced (ws : List Text) : Text := ws.flatMap fun word => ' ' :: word

/-- The words with one space between each two, and one in front of them all when the text starts
with a blank. -/
def singleSpaced (s : Text) : Text :=
  if s.head?.any isBlank then spaced (words s) else (spaced (words s)).tail

theorem singleSpaced_cons_blank {c : Char} (h : isBlank c = true) (s : Text) :
    singleSpaced (c :: s) = spaced (words s) := by
  have hhead : (c :: s).head?.any isBlank = true := h
  rw [singleSpaced, if_pos hhead, words_cons_blank h]

/-- A character put in front of a word is the start of that word. -/
theorem words_cons_cons {c d : Char} (hc : isBlank c = false) (hd : isBlank d = false) (s : Text) :
    ∃ word rest, words (d :: s) = (d :: word) :: rest
      ∧ words (c :: d :: s) = (c :: d :: word) :: rest := by
  obtain ⟨piece, pieces, hpieces⟩ := List.exists_cons_of_ne_nil (List.splitOnP_ne_nil isBlank s)
  refine ⟨piece, pieces.filter (!·.isEmpty), ?_, ?_⟩
  · simp [words, List.splitOnP_cons_eq_if_modifyHead, hd, hpieces]
  · simp [words, List.splitOnP_cons_eq_if_modifyHead, hc, hd, hpieces]

theorem singleSpaced_cons_char {c : Char} (h : isBlank c = false) (s : Text) :
    singleSpaced (c :: s) = c :: singleSpaced s := by
  have hone : words [c] = [[c]] := words_of_plain (List.cons_ne_nil c []) (by simpa using h)
  have hhead : ¬ (c :: s).head?.any isBlank = true := by simp [h]
  rw [singleSpaced, if_neg hhead]
  cases s with
  | nil =>
    rw [hone]
    rfl
  | cons d s =>
    cases hd : isBlank d with
    | true =>
      have hwords : words (c :: d :: s) = [c] :: words s := by
        rw [← List.singleton_append, words_append_blank hd, hone]
        rfl
      rw [hwords, singleSpaced_cons_blank hd]
      rfl
    | false =>
      obtain ⟨word, rest, hwords, hwords'⟩ := words_cons_cons h hd s
      have hhead' : ¬ (d :: s).head?.any isBlank = true := by simp [hd]
      rw [hwords', singleSpaced, if_neg hhead', hwords]
      rfl

theorem spaced_words_cases (s : Text) :
    spaced (words s) = singleSpaced s ∨ spaced (words s) = ' ' :: singleSpaced s := by
  rw [singleSpaced]
  split
  · exact Or.inl rfl
  · cases words s with
    | nil => exact Or.inl rfl
    | cons word rest => exact Or.inr rfl

theorem beginsWithWordChar_singleSpaced (s : Text) :
    beginsWithWordChar (singleSpaced s) = beginsWithWordChar s := by
  cases s with
  | nil => rfl
  | cons c s =>
    cases hc : isBlank c with
    | false => rw [singleSpaced_cons_char hc]; rfl
    | true =>
      have hword : beginsWithWordChar (c :: s) = false := isWordChar_of_isBlank hc
      have hspace : isWordChar ' ' = false := rfl
      rw [hword, singleSpaced_cons_blank hc]
      cases words s with
      | nil => rfl
      | cons word rest => exact hspace

theorem after?_append {token s rest : Text} (h : after? token s = some rest) (t : Text) :
    after? token (s ++ t) = some (rest ++ t) := by
  rw [after?_eq_some_iff] at h ⊢
  rw [h, List.append_assoc]

/-- A token without blanks is found in front of the one text when it is in front of the other. -/
theorem after?_singleSpaced {token : Text} (h : token.all (!isBlank ·) = true) (s : Text) :
    after? token (singleSpaced s) = (after? token s).map singleSpaced := by
  induction token generalizing s with
  | nil => simp [after?]
  | cons t token ih =>
    rw [List.all_cons, Bool.and_eq_true, Bool.not_eq_true'] at h
    obtain ⟨ht, htoken⟩ := h
    cases s with
    | nil => rfl
    | cons c s =>
      cases hc : isBlank c with
      | false =>
        rw [singleSpaced_cons_char hc, after?, after?]
        split
        · exact ih htoken s
        · rfl
      | true =>
        have hne : (t == c) = false := by
          rw [beq_eq_false_iff_ne]
          rintro rfl
          rw [hc] at ht
          cases ht
        have hspace : (t == ' ') = false := by
          rw [beq_eq_false_iff_ne]
          rintro rfl
          cases ht
        rw [singleSpaced_cons_blank hc, after?, hne]
        cases words s with
        | nil => rfl
        | cons word rest => simp [spaced, after?, hspace]

end Text

namespace Body

open Text

/-! ## Halving -/

theorem digitFollows_singleSpaced (digit : Char) (s : Text) :
    digitFollows digit (singleSpaced s) = digitFollows digit s := by
  induction s with
  | nil => rfl
  | cons c s ih =>
    cases hc : isBlank c with
    | true =>
      have hspace : isBlank ' ' = true := rfl
      rw [digitFollows_of_blank hc, singleSpaced_cons_blank hc, ← ih]
      rcases spaced_words_cases s with h | h
      · rw [h]
      · rw [h, digitFollows_of_blank hspace]
    | false =>
      simp [singleSpaced_cons_char hc, digitFollows, trimStart, hc, beginsWithWordChar_singleSpaced]

theorem blankAndDigit_singleSpaced (digit : Char) (s : Text) :
    ((singleSpaced s).head?.any isBlank && digitFollows digit (singleSpaced s)) =
      (s.head?.any isBlank && digitFollows digit s) := by
  rw [digitFollows_singleSpaced]
  cases s with
  | nil => rfl
  | cons c s =>
    cases hc : isBlank c with
    | false => rw [singleSpaced_cons_char hc]; rfl
    | true =>
      have hdigit := digitFollows_singleSpaced digit (c :: s)
      rw [singleSpaced_cons_blank hc] at hdigit ⊢
      cases hwords : words s with
      | nil =>
        -- without a word there is no digit either
        rw [hwords] at hdigit
        rw [← hdigit]
        simp [spaced, digitFollows, trimStart]
      | cons word rest =>
        have hspace : isBlank ' ' = true := rfl
        simp [spaced, hc, hspace]

theorem halvesHere_singleSpaced (previous : Option Char) (s : Text) :
    halvesHere previous (singleSpaced s) = halvesHere previous s := by
  have hslash : "/".toList.all (!isBlank ·) = true := by decide
  have hshift : ">>".toList.all (!isBlank ·) = true := by decide
  have hdiv : "div".toList.all (!isBlank ·) = true := by decide
  rw [halvesHere, halvesHere, after?_singleSpaced hslash, after?_singleSpaced hshift,
    after?_singleSpaced hdiv, Option.any_map, Option.any_map, Option.any_map]
  -- the blank behind the word is looked at together with the digit, so that pair goes first
  simp only [blankAndDigit_singleSpaced]
  simp only [digitFollows_singleSpaced]

theorem halvesHere_of_blank {c : Char} (h : isBlank c = true) (previous : Option Char) (s : Text) :
    halvesHere previous (c :: s) = false := by
  have hne : ∀ d, isBlank d = false → (d == c) = false := by
    intro d hd
    rw [beq_eq_false_iff_ne]
    rintro rfl
    rw [h] at hd
    cases hd
  simp [halvesHere, after?, hne '/' rfl, hne '>' rfl, hne 'd' rfl]

/-- Of the character in front only its being a word character matters. -/
theorem halvesFrom_congr {previous previous' : Option Char}
    (h : previous.any isWordChar = previous'.any isWordChar) (s : Text) :
    halvesFrom previous s = halvesFrom previous' s := by
  cases s with
  | nil => rfl
  | cons c s => rw [halvesFrom, halvesFrom, halvesHere, halvesHere, h]

theorem halvesFrom_cons_blank {c : Char} (h : isBlank c = true) (previous : Option Char)
    (s : Text) : halvesFrom previous (c :: s) = halvesFrom none s := by
  have hword : (some c).any isWordChar = (none : Option Char).any isWordChar :=
    isWordChar_of_isBlank h
  rw [halvesFrom, halvesHere_of_blank h, Bool.false_or, halvesFrom_congr hword]

theorem halvesFrom_spaced_words (previous : Option Char) (s : Text) :
    halvesFrom previous (spaced (words s)) = halvesFrom none (singleSpaced s) := by
  have hspace : isBlank ' ' = true := rfl
  cases hwords : words s with
  | nil =>
    have hnone : singleSpaced s = [] := by simp [singleSpaced, hwords, spaced]
    rw [hnone]
    rfl
  | cons word rest =>
    have hcases := spaced_words_cases s
    rw [hwords] at hcases
    rcases hcases with h | h
    · rw [← h]
      simp only [spaced, List.flatMap_cons, List.cons_append, halvesFrom_cons_blank hspace]
    · rw [h, halvesFrom_cons_blank hspace]

theorem halvesFrom_singleSpaced (previous : Option Char) (s : Text) :
    halvesFrom previous (singleSpaced s) = halvesFrom previous s := by
  induction s generalizing previous with
  | nil => rfl
  | cons c s ih =>
    cases hc : isBlank c with
    | false =>
      have hhere := halvesHere_singleSpaced previous (c :: s)
      rw [singleSpaced_cons_char hc] at hhere ⊢
      rw [halvesFrom, halvesFrom, hhere, ih]
    | true =>
      rw [singleSpaced_cons_blank hc, halvesFrom_cons_blank hc, ← ih]
      exact halvesFrom_spaced_words previous s

theorem hasHalving_eq_of_words {body body' : Text} (h : words body = words body') :
    hasHalving body = hasHalving body' := by
  rw [hasHalving, hasHalving, ← halvesFrom_singleSpaced, ← halvesFrom_singleSpaced none body',
    ← halvesFrom_spaced_words none, ← halvesFrom_spaced_words none, h]

/-! ## Idioms -/

section

variable {body body' : Text} (h : words body = words body')

include h

theorem isBinarySearch_eq_of_words : isBinarySearch body = isBinarySearch body' := by
  rw [isBinarySearch, isBinarySearch, anyOccursIn_eq_of_words (by decide) h,
    anyOccursIn_eq_of_words (by decide) h, anyOccursIn_eq_of_words (by decide) h,
    hasHalving_eq_of_words h]

theorem isDivideAndConquer_eq_of_words : isDivideAndConquer body = isDivideAndConquer body' := by
  rw [isDivideAndConquer, isDivideAndConquer, occursIn_eq_of_words (by decide) h,
    occursIn_eq_of_words (by decide) h, occursIn_eq_of_words (by decide) h,
    hasHalving_eq_of_words h]

end

end Body

end GrowthEstimate
