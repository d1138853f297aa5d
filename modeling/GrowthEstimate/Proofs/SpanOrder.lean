import GrowthEstimate.Proofs.HeaderSpans

/-!
# The order of the spans

The spans of a text lie inside it, one behind the other, and none of them holds a header of
another function.

* `pairwise_spansFrom`: a span ends in front of every later one;
* `mem_extractLines_cases`: a span is the block from the first line on, or it is a function;
* `extract_layout`: bounds, order and headers for every text and every tag.
-/

namespace GrowthEstimate

open Text Header

namespace Family.Placed

variable {family : Family} {read : Nat} {rest : List Text} {span : Span}

theorem first_bounds (h : family.Placed read rest span) :
    (read + 1 : Int) ≤ span.first ∧ span.first ≤ span.last + 1 := by
  cases h with
  | oneLine name body =>
    simp only [Span.onLines]
    omega
  | block name count inside plain =>
    simp only [Span.onLines]
    omega

theorem last_le (h : family.Placed read rest span) : span.last ≤ read + 1 + rest.length := by
  cases h with
  | oneLine name body =>
    simp only [Span.onLines]
    omega
  | block name count inside plain =>
    simp only [Span.onLines]
    omega

/-- A header behind a placed span stands behind its last line. -/
theorem last_le_of_header (h : family.Placed read rest span) {before behind : List Text}
    {line : Text} (hrest : rest = before ++ line :: behind)
    (hheader : family.isHeader (trim line) = true) : span.last ≤ read + 1 + before.length := by
  cases h with
  | oneLine name body =>
    simp only [Span.onLines]
    omega
  | block name count inside plain =>
    simp only [Span.onLines]
    by_cases hcount : before.length < count
    · have hmem : line ∈ rest.take count := by
        rw [hrest, List.mem_take_iff_getElem]
        refine ⟨before.length, ?_, ?_⟩
        · simp only [List.length_append, List.length_cons]
          omega
        · simp
      rw [plain line hmem] at hheader
      cases hheader
    · omega

end Family.Placed

/-- Every span of a text comes from a header, which gives it its name and its place. -/
theorem exists_header_of_mem {family : Family} {lines : List Text} {read : Nat} {span : Span}
    (h : span ∈ spansFrom family.spanAt read lines) :
    ∃ before line rest, lines = before ++ line :: rest
      ∧ family.nameIn? (trim line) = some span.name
      ∧ family.Placed (read + before.length) rest span := by
  obtain ⟨before, line, rest, hsplit, hspan⟩ := mem_spansFrom_iff.1 h
  exact ⟨before, line, rest, hsplit, placed_of_spanAt hspan⟩

theorem pairwise_spansFrom (family : Family) (read : Nat) (lines : List Text) :
    (spansFrom family.spanAt read lines).Pairwise fun a b => a.last < b.first := by
  induction lines generalizing read with
  | nil => exact List.Pairwise.nil
  | cons line rest ih =>
    rw [spansFrom]
    cases hspan : family.spanAt read line rest with
    | none => exact ih (read + 1)
    | some span =>
      refine List.pairwise_cons.2 ⟨?_, ih (read + 1)⟩
      intro later hlater
      have hplaced := (placed_of_spanAt hspan).2
      obtain ⟨before, header, behind, hsplit, hname, hlaterPlaced⟩ := exists_header_of_mem hlater
      have hlast := hplaced.last_le_of_header hsplit (Family.isHeader_of_nameIn? hname)
      have hfirst := hlaterPlaced.first_bounds
      omega

theorem bounds_of_mem_functionSpans {family : Family} {lines : List Text} {span : Span}
    (h : span ∈ functionSpans family lines) :
    1 ≤ span.first ∧ span.first ≤ span.last + 1 ∧ span.last ≤ lines.length := by
  rw [functionSpans_eq] at h
  obtain ⟨before, line, rest, rfl, -, hplaced⟩ := exists_header_of_mem h
  have hfirst := hplaced.first_bounds
  have hlast := hplaced.last_le
  simp only [List.length_append, List.length_cons]
  omega

/-! ## Lines and spans -/

/-- Whether the body of a span takes in the line of the given number. -/
def Span.Covers (span : Span) (number : Int) : Prop := span.first ≤ number ∧ number ≤ span.last

theorem index_eq_of_covers {spans : List Span} (hp : spans.Pairwise fun a b => a.last < b.first)
    {i j : Nat} {a b : Span} (hi : spans[i]? = some a) (hj : spans[j]? = some b) {number : Int}
    (ha : a.Covers number) (hb : b.Covers number) : i = j := by
  have apart : ∀ {i j : Nat} {a b : Span}, spans[i]? = some a → spans[j]? = some b →
      a.Covers number → b.Covers number → ¬ i < j := by
    intro i j a b hi hj ha hb hij
    obtain ⟨hilt, rfl⟩ := List.getElem?_eq_some_iff.1 hi
    obtain ⟨hjlt, rfl⟩ := List.getElem?_eq_some_iff.1 hj
    have hlt := List.pairwise_iff_getElem.1 hp i j hilt hjlt hij
    have hlate := ha.2
    have hearly := hb.1
    omega
  have hij := apart hi hj ha hb
  have hji := apart hj hi hb ha
  omega

/-- The lines that a function on several lines takes in hold no header. -/
theorem isHeader_eq_false_of_covers {family : Family} {lines : List Text} {span : Span}
    (h : span ∈ functionSpans family lines) (hbody : span.inlineBody = none) {n : Nat}
    {line : Text} (hline : lines[n]? = some line) (hcovers : span.Covers (n + 1)) :
    family.isHeader (trim line) = false := by
  rw [functionSpans_eq] at h
  obtain ⟨before, header, rest, rfl, -, hplaced⟩ := exists_header_of_mem h
  cases hplaced with
  | oneLine name body => cases hbody
  | block name count inside plain =>
    have hfirst : ((0 + before.length + 2 : Nat) : Int) ≤ n + 1 := hcovers.1
    have hlast : (n + 1 : Int) ≤ ((0 + before.length + 1 + count : Nat) : Int) := hcovers.2
    obtain ⟨k, rfl⟩ : ∃ k, n = before.length + 1 + k := ⟨n - before.length - 1, by omega⟩
    rw [getElem?_behind] at hline
    obtain ⟨hk, hget⟩ := List.getElem?_eq_some_iff.1 hline
    apply plain line
    rw [List.mem_take_iff_getElem]
    exact ⟨k, by omega, hget⟩

/-- A function that carries its body takes in the line of its header and no other. -/
theorem header_of_inlineBody {family : Family} {lines : List Text} {span : Span}
    (h : span ∈ functionSpans family lines) (hbody : span.inlineBody.isSome) :
    ∃ (n : Nat) (line : Text), lines[n]? = some line
      ∧ family.nameIn? (trim line) = some span.name
      ∧ span.first = n + 1 ∧ span.last = n + 1 := by
  rw [functionSpans_eq] at h
  obtain ⟨before, header, rest, rfl, hname, hplaced⟩ := exists_header_of_mem h
  cases hplaced with
  | oneLine name body =>
    refine ⟨before.length, header, by simp, hname, ?_, ?_⟩
    · simp only [Span.onLines]
      omega
    · simp only [Span.onLines]
      omega
  | block name count inside plain => cases hbody

/-! ## Whole texts -/

/-- What the search comes to: a block in the place of the functions, or the functions. -/
theorem extractLines_cases (lines : List Text) (family : Family) :
    (lineLimit < lines.length ∧ extractLines lines family =
        ⟨[Span.onLines Span.placeholder 1 (min lines.length truncatedLines)], .tooManyLines⟩)
      ∨ (lines.length ≤ lineLimit ∧ functionSpans family lines = [] ∧ extractLines lines family =
        ⟨[Span.onLines Span.placeholder 1 lines.length], .noFunction⟩)
      ∨ (lines.length ≤ lineLimit ∧ functionSpans family lines ≠ [] ∧ extractLines lines family =
        ⟨functionSpans family lines, .functions⟩) := by
  by_cases hlimit : lineLimit < lines.length
  · exact Or.inl ⟨hlimit, by rw [extractLines, if_pos hlimit]⟩
  · have hwithin : lines.length ≤ lineLimit := by omega
    rw [extractLines, if_neg hlimit]
    cases hspans : functionSpans family lines with
    | nil => exact Or.inr (Or.inl ⟨hwithin, rfl, rfl⟩)
    | cons span spans => exact Or.inr (Or.inr ⟨hwithin, by simp, rfl⟩)

section

variable {lines : List Text} {family : Family} {span : Span}
  (h : span ∈ (extractLines lines family).spans)

include h

/-- A span is the block from the first line on, or it is a function. -/
theorem mem_extractLines_cases :
    (∃ last : Nat, last ≤ lines.length ∧ span = Span.onLines Span.placeholder 1 last)
      ∨ span ∈ functionSpans family lines := by
  rcases extractLines_cases lines family with ⟨-, he⟩ | ⟨-, -, he⟩ | ⟨-, -, he⟩
  · rw [he, List.mem_singleton] at h
    exact Or.inl ⟨_, Nat.min_le_left _ _, h⟩
  · rw [he, List.mem_singleton] at h
    exact Or.inl ⟨_, Nat.le_refl _, h⟩
  · rw [he] at h
    exact Or.inr h

/-- A span has its name from a header, unless it is the block. -/
theorem name_of_mem_extractLines :
    span.name = Span.placeholder
      ∨ ∃ line ∈ lines, family.nameIn? (trim line) = some span.name := by
  rcases mem_extractLines_cases h with ⟨last, -, rfl⟩ | hfunction
  · exact Or.inl rfl
  · rw [functionSpans_eq] at hfunction
    obtain ⟨before, line, rest, hsplit, hname, -⟩ := exists_header_of_mem hfunction
    exact Or.inr ⟨line, by simp [hsplit], hname⟩

theorem bounds_of_mem_extractLines :
    1 ≤ span.first ∧ span.first ≤ span.last + 1 ∧ span.last ≤ lines.length := by
  rcases mem_extractLines_cases h with ⟨last, hlast, rfl⟩ | hfunction
  · simp only [Span.onLines]
    omega
  · exact bounds_of_mem_functionSpans hfunction

/-- A body on one line belongs to a function. -/
theorem mem_functionSpans_of_inlineBody (hbody : span.inlineBody.isSome) :
    span ∈ functionSpans family lines := by
  rcases mem_extractLines_cases h with ⟨last, -, rfl⟩ | hfunction
  · cases hbody
  · exact hfunction

theorem header_of_mem_extractLines (hbody : span.inlineBody.isSome) :
    ∃ (n : Nat) (line : Text), lines[n]? = some line
      ∧ family.nameIn? (trim line) = some span.name
      ∧ span.first = n + 1 ∧ span.last = n + 1 :=
  header_of_inlineBody (mem_functionSpans_of_inlineBody h hbody) hbody

end

theorem pairwise_extractLines (lines : List Text) (family : Family) :
    (extractLines lines family).spans.Pairwise fun a b => a.last < b.first := by
  rcases extractLines_cases lines family with ⟨-, he⟩ | ⟨-, -, he⟩ | ⟨-, -, he⟩
  · rw [he]
    exact List.pairwise_singleton _ _
  · rw [he]
    exact List.pairwise_singleton _ _
  · rw [he, functionSpans_eq]
    exact pairwise_spansFrom family 0 lines

theorem spans_of_detected {lines : List Text} {family : Family}
    (hd : (extractLines lines family).detected = true)
    (ht : (extractLines lines family).truncated = false) :
    (extractLines lines family).spans = functionSpans family lines := by
  rcases extractLines_cases lines family with ⟨-, he⟩ | ⟨-, -, he⟩ | ⟨-, -, he⟩
  · rw [he] at ht
    cases ht
  · rw [he] at hd
    cases hd
  · rw [he]

/-- With no more lines than are searched, the spans of a text with functions are its functions. -/
theorem spans_of_functions {lines : List Text} {family : Family} (h : lines.length ≤ lineLimit)
    (hd : (extractLines lines family).detected = true) :
    (extractLines lines family).spans = functionSpans family lines := by
  apply spans_of_detected hd
  rcases extractLines_cases lines family with ⟨hmany, -⟩ | ⟨-, -, he⟩ | ⟨-, -, he⟩
  · omega
  · rw [he]
    rfl
  · rw [he]
    rfl

/-- Every text has spans.  They lie inside the text and one behind the other, so that no line
belongs to two of them; and spans that stand for functions hold no header inside, or carry their
body and stand on their own header alone. -/
theorem extract_layout (source tag : Text) :
    let lines := splitLines source
    let family := familyOfTag tag
    let e := extract source tag
    e.spans ≠ []
      ∧ (∀ span ∈ e.spans,
          1 ≤ span.first ∧ span.first ≤ span.last + 1 ∧ span.last ≤ lines.length)
      ∧ e.spans.Pairwise (fun a b => a.last < b.first)
      ∧ (∀ (i j : Nat) (a b : Span) (number : Int), e.spans[i]? = some a → e.spans[j]? = some b →
          a.Covers number → b.Covers number → i = j)
      ∧ (e.detected = true → e.truncated = false → ∀ span ∈ e.spans,
          (span.inlineBody = none → ∀ (n : Nat) line, lines[n]? = some line →
            span.Covers (n + 1) → family.isHeader (trim line) = false)
          ∧ (span.inlineBody.isSome → ∃ (n : Nat) (line : Text), lines[n]? = some line
            ∧ family.nameIn? (trim line) = some span.name
            ∧ span.first = n + 1 ∧ span.last = n + 1)) := by
  intro lines family e
  have ordered : e.spans.Pairwise fun a b => a.last < b.first := pairwise_extractLines lines family
  refine ⟨extract_spans_ne_nil source tag, ?_, ordered, ?_, ?_⟩
  · intro span hspan
    exact bounds_of_mem_extractLines hspan
  · intro i j a b number hi hj ha hb
    exact index_eq_of_covers ordered hi hj ha hb
  · intro hdetected hwhole span hspan
    have hfunctions : e.spans = functionSpans family lines := spans_of_detected hdetected hwhole
    rw [hfunctions] at hspan
    refine ⟨?_, header_of_inlineBody hspan⟩
    intro hbody n line hline hcovers
    exact isHeader_eq_false_of_covers hspan hbody hline hcovers

end GrowthEstimate
