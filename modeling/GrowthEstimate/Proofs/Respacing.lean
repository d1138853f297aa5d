import GrowthEstimate.Proofs.Spacing

/-!
# Halvings in a body that is laid out anew

Laying a body out anew puts other blanks where it has blanks, line breaks included, and leaves
everything else as it stands.  The words of the body stay, and so does every sign that rests on a
halving.  Where a halving stands is told without the scan that looks for it: an operator, blanks
and a digit, with nothing around them that makes a longer word or number of them.

* `Respaced.words_eq`: a text and the text laid out anew have the same words;
* `halvesHere_iff`, `halvesFrom_iff`: what the scan asks of a place, and that it asks every place;
* `halving_of_respaced`: the signs of a body laid out anew, and where a body halves.
-/

namespace GrowthEstimate

namespace Text

/-! ## Runs of blanks -/

/-- The two texts have the same words, and where the one has a run of blanks between them or at
either end, the other has a run of blanks as well, of any length and of any kind.  Runs that touch
are one run. -/
inductive Respaced : Text → Text → Prop
  | word {w : Text} (hw : ∀ c ∈ w, isBlank c = false) : Respaced w w
  | run {w pad pad' s s' : Text} (hw : ∀ c ∈ w, isBlank c = false) (hne : pad ≠ [])
      (hne' : pad' ≠ []) (hpad : ∀ c ∈ pad, isBlank c = true)
      (hpad' : ∀ c ∈ pad', isBlank c = true) (hrest : Respaced s s') :
      Respaced (w ++ pad ++ s) (w ++ pad' ++ s')

theorem words_append_run {pad : Text} (hne : pad ≠ []) (hpad : ∀ c ∈ pad, isBlank c = true)
    (s t : Text) : words (s ++ pad ++ t) = words s ++ words t := by
  obtain ⟨c, pad, rfl⟩ := List.exists_cons_of_ne_nil hne
  have hrest : ∀ d ∈ pad, isBlank d = true := fun d hd => hpad d (by simp [hd])
  rw [List.append_assoc, List.cons_append, words_append_blank (hpad c (by simp)),
    words_pad hrest]

theorem Respaced.words_eq {s s' : Text} (h : Respaced s s') : words s = words s' := by
  induction h with
  | word => rfl
  | run _ hne hne' hpad hpad' _ ih =>
    rw [words_append_run hne hpad, words_append_run hne' hpad', ih]

end Text

namespace Body

open Text

/-! ## Where a halving stands -/

/-- The operators that halve, each with the digit that it takes: `previous` is the character in
front of the operator and `gap` stands behind it.  The one that is a word must neither end a longer
word nor run into the digit. -/
inductive Halves (previous : Option Char) : (operator gap : Text) → (digit : Char) → Prop
  | slash (gap : Text) : Halves previous "/".toList gap '2'
  | shift (gap : Text) : Halves previous ">>".toList gap '1'
  | word {gap : Text} (hne : gap ≠ []) (hprevious : previous.any isWordChar = false) :
      Halves previous "div".toList gap '2'

theorem digitFollows_iff {digit : Char} (hdigit : isBlank digit = false) {s : Text} :
    digitFollows digit s = true ↔ ∃ gap after, s = gap ++ digit :: after
      ∧ (∀ c ∈ gap, isBlank c = true) ∧ beginsWithWordChar after = false := by
  constructor
  · intro h
    rw [digitFollows] at h
    split at h
    · cases h
    · next c after hstart =>
      simp only [Bool.and_eq_true, beq_iff_eq, Bool.not_eq_true'] at h
      obtain ⟨rfl, hafter⟩ := h
      have hs : s = s.takeWhile isBlank ++ trimStart s := List.takeWhile_append_dropWhile.symm
      rw [hstart] at hs
      exact ⟨_, after, hs, fun d hd => List.all_eq_true.1 List.all_takeWhile d hd, hafter⟩
  · rintro ⟨gap, after, rfl, hgap, hafter⟩
    have hstart : trimStart (gap ++ digit :: after) = digit :: after := by
      rw [trimStart_append_of_blank hgap]
      simp [trimStart, hdigit]
    rw [digitFollows, hstart]
    simp [hafter]

theorem halvesHere_iff {previous : Option Char} {s : Text} :
    halvesHere previous s = true ↔ ∃ operator gap digit after, Halves previous operator gap digit
      ∧ s = operator ++ gap ++ digit :: after
      ∧ (∀ c ∈ gap, isBlank c = true) ∧ beginsWithWordChar after = false := by
  have hone : isBlank '1' = false := rfl
  have htwo : isBlank '2' = false := rfl
  simp only [halvesHere, Bool.or_eq_true, Option.any_eq_true, Bool.and_eq_true,
    after?_eq_some_iff, digitFollows_iff hone, digitFollows_iff htwo, Bool.not_eq_true']
  constructor
  · rintro ((⟨_, rfl, gap, after, rfl, hgap, hafter⟩ | ⟨_, rfl, gap, after, rfl, hgap, hafter⟩) |
      ⟨_, rfl, ⟨⟨c, hc, hblank⟩, gap, after, rfl, hgap, hafter⟩, hprevious⟩)
    · exact ⟨_, gap, _, after, .slash gap, (List.append_assoc ..).symm, hgap, hafter⟩
    · exact ⟨_, gap, _, after, .shift gap, (List.append_assoc ..).symm, hgap, hafter⟩
    · have hne : gap ≠ [] := by
        rintro rfl
        cases hc
        cases hblank
      exact ⟨_, gap, _, after, .word hne hprevious, (List.append_assoc ..).symm, hgap, hafter⟩
  · rintro ⟨_, gap, _, after, hhalves, rfl, hgap, hafter⟩
    cases hhalves with
    | slash =>
      exact Or.inl (Or.inl ⟨_, List.append_assoc .., gap, after, rfl, hgap, hafter⟩)
    | shift =>
      exact Or.inl (Or.inr ⟨_, List.append_assoc .., gap, after, rfl, hgap, hafter⟩)
    | word hne hprevious =>
      obtain ⟨c, rest, rfl⟩ := List.exists_cons_of_ne_nil hne
      have hblank : isBlank c = true := hgap c (by simp)
      exact Or.inr ⟨_, List.append_assoc .., ⟨⟨c, rfl, hblank⟩, _, after, rfl, hgap, hafter⟩,
        hprevious⟩

theorem halvesFrom_iff {previous : Option Char} {s : Text} :
    halvesFrom previous s = true ↔ ∃ before rest, s = before ++ rest
      ∧ halvesHere (before.getLast?.or previous) rest = true := by
  induction s generalizing previous with
  | nil =>
    simp [halvesFrom, halvesHere, after?]
  | cons c s ih =>
    have hlast : ∀ before : Text,
        (c :: before).getLast?.or previous = before.getLast?.or (some c) := by
      intro before
      simp [List.getLast?_cons]
    rw [halvesFrom, Bool.or_eq_true, ih]
    constructor
    · rintro (hhere | ⟨before, rest, rfl, hthere⟩)
      · exact ⟨[], c :: s, rfl, hhere⟩
      · exact ⟨c :: before, rest, rfl, by rwa [hlast]⟩
    · rintro ⟨before, rest, hs, hthere⟩
      cases before with
      | nil =>
        obtain rfl : c :: s = rest := hs
        exact Or.inl hthere
      | cons d before =>
        obtain ⟨rfl, rfl⟩ := List.cons.inj hs
        exact Or.inr ⟨before, rest, rfl, by rwa [← hlast]⟩

/-- The signs that rest on a halving are the same however a body is laid out, and a body halves just
where one of the operators has its digit behind it, the blanks between them apart. -/
theorem halving_of_respaced (body : Text) :
    (∀ body', Respaced body body' → ∀ sign ∈ [hasHalving, isBinarySearch, isDivideAndConquer],
        sign body' = sign body)
      ∧ (hasHalving body = true ↔ ∃ before operator gap digit after,
          Halves before.getLast? operator gap digit
            ∧ body = before ++ operator ++ gap ++ digit :: after
            ∧ (∀ c ∈ gap, isBlank c = true) ∧ beginsWithWordChar after = false) := by
  constructor
  · intro body' hbody'
    have hwords : words body' = words body := hbody'.words_eq.symm
    simp only [List.forall_mem_cons]
    exact ⟨hasHalving_eq_of_words hwords, isBinarySearch_eq_of_words hwords,
      isDivideAndConquer_eq_of_words hwords, by simp⟩
  · simp only [hasHalving, halvesFrom_iff, halvesHere_iff, Option.or_none]
    constructor
    · rintro ⟨before, _, rfl, operator, gap, digit, after, hhalves, rfl, hgap, hafter⟩
      exact ⟨before, operator, gap, digit, after, hhalves, by simp, hgap, hafter⟩
    · rintro ⟨before, operator, gap, digit, after, hhalves, rfl, hgap, hafter⟩
      exact ⟨before, operator ++ gap ++ digit :: after, by simp, operator, gap, digit, after,
        hhalves, rfl, hgap, hafter⟩

/-- A line break moved from behind the operator to the front of it. -/
theorem halving_of_respaced_broken :
    let body := "high+low,mid div\n2;".toList
    let body' := "high+low,mid\n\tdiv  2;".toList
    Respaced body body' ∧ hasHalving body = true ∧ isBinarySearch body' = true := by
  intro body body'
  have hspaced : Respaced body body' := by
    have hrest : Respaced ("div".toList ++ "\n".toList ++ "2;".toList)
        ("div".toList ++ "  ".toList ++ "2;".toList) :=
      .run (by simp [isBlank]) (by decide) (by decide) (by simp [isBlank]) (by simp [isBlank])
        (.word (by simp [isBlank]))
    have hwhole : Respaced ("high+low,mid".toList ++ " ".toList ++ "div\n2;".toList)
        ("high+low,mid".toList ++ "\n\t".toList ++ "div  2;".toList) :=
      .run (by simp [isBlank]) (by decide) (by decide) (by simp [isBlank]) (by simp [isBlank])
        hrest
    exact hwhole
  obtain ⟨hsigns, hplace⟩ := halving_of_respaced body
  have hhalves : Halves "high+low,mid ".toList.getLast? "div".toList "\n".toList '2' :=
    .word (by decide) (by decide)
  refine ⟨hspaced, hplace.2 ⟨_, _, _, _, ";".toList, hhalves, by decide, by simp [isBlank], by decide⟩, ?_⟩
  rw [hsigns body' hspaced isBinarySearch (by simp)]
  decide

end Body

end GrowthEstimate
