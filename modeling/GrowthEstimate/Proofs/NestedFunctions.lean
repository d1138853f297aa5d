import GrowthEstimate.Body.LoopDepth
import GrowthEstimate.Proofs.SpanOrder
import Mathlib.Data.Nat.Find

/-!
# Functions inside functions

A header ends the function that is open in front of it, and nothing reopens that function when the
inner one is closed.  So a line inside a block of braces belongs to the last header in front of it
or to no function at all.

* `covers_iff_of_spanAt`: which lines the function of a header takes in;
* `exists_covers_iff`: a line is taken in just when it stands in the block of the last header;
* `outer_lines_hidden`: lines of a function behind an inner one that are in no span;
* `block_covered`: every line of a block is taken in, is a header, or stands behind an inner
  function.
-/

namespace GrowthEstimate

open Text

/-! ## Blocks of braces -/

def Family.opensAt (family : Family) (lines : List Text) (n : Nat) : Bool :=
  lines[n]?.any fun line => (family.nameIn? (trim line)).isSome

/-- Opening braces less closing ones from one line to another, both included. -/
def balanceOver (lines : List Text) (first last : Nat) : Int :=
  (((lines.take (last + 1)).drop first).map braceBalance).sum

/-- Whether line `k` stands in the block that line `n` opens: behind it, and no later than the line
on which the braces counted from line `n` on are first all closed. -/
def InBlock (lines : List Text) (n k : Nat) : Prop :=
  n < k ∧ k < lines.length ∧ ∀ j < k, n ≤ j → 0 < balanceOver lines n j

instance (lines : List Text) (n k : Nat) : Decidable (InBlock lines n k) :=
  inferInstanceAs (Decidable (_ ∧ _ ∧ _))

instance (span : Span) (number : Int) : Decidable (span.Covers number) :=
  inferInstanceAs (Decidable (_ ∧ _))

theorem balanceOver_split (before : List Text) (header : Text) (rest : List Text) (j : Nat) :
    balanceOver (before ++ header :: rest) before.length (before.length + j) =
      braceBalance header + ((rest.take j).map braceBalance).sum := by
  have hlast : before.length + j + 1 = before.length + (j + 1) := by omega
  rw [balanceOver, hlast, List.take_length_add_append, List.drop_left, List.take_succ_cons,
    List.map_cons, List.sum_cons]

/-- The block of a header, by what stands behind the header. -/
theorem inBlock_split_iff {before : List Text} {header : Text} {rest : List Text} {i : Nat} :
    InBlock (before ++ header :: rest) before.length (before.length + 1 + i) ↔
      i < rest.length ∧ 0 < braceBalance header
        ∧ ∀ j < i, 0 < braceBalance header + ((rest.take (j + 1)).map braceBalance).sum := by
  constructor
  · rintro ⟨-, hlength, hopen⟩
    refine ⟨by simp at hlength; omega, ?_, ?_⟩
    · have hfirst := hopen (before.length + 0) (by omega) (by omega)
      rw [balanceOver_split] at hfirst
      simpa using hfirst
    · intro j hj
      rw [← balanceOver_split before header rest]
      exact hopen _ (by omega) (by omega)
  · rintro ⟨hlength, hheader, hopen⟩
    refine ⟨by omega, by simp; omega, ?_⟩
    intro j hj hle
    obtain ⟨d, rfl⟩ : ∃ d, j = before.length + d := ⟨j - before.length, by omega⟩
    rw [balanceOver_split]
    cases d with
    | zero => simpa using hheader
    | succ d => exact hopen d (by omega)

/-! ## The lines of a function -/

theorem Family.opensAt_split (family : Family) (before : List Text) (line : Text)
    (rest : List Text) :
    family.opensAt (before ++ line :: rest) before.length =
      (family.nameIn? (trim line)).isSome := by
  simp [opensAt]

theorem Family.exists_split_of_opensAt {family : Family} {lines : List Text} {n : Nat}
    (h : family.opensAt lines n = true) :
    ∃ before header rest, lines = before ++ header :: rest ∧ before.length = n
      ∧ (family.nameIn? (trim header)).isSome := by
  cases hline : lines[n]? with
  | none =>
    rw [opensAt, hline] at h
    cases h
  | some header =>
    obtain ⟨hn, rfl⟩ := List.getElem?_eq_some_iff.1 hline
    rw [opensAt, hline] at h
    refine ⟨lines.take n, lines[n], lines.drop (n + 1), ?_, ?_, h⟩
    · rw [← List.drop_eq_getElem_cons hn, List.take_append_drop]
    · rw [List.length_take]
      omega

/-- That the first lines behind a header open nothing, by their numbers. -/
theorem Family.forall_mem_take_iff {family : Family} {before : List Text} {header : Text}
    {rest : List Text} {i : Nat} :
    (∀ line ∈ rest.take (i + 1), family.nameIn? (trim line) = none) ↔
      ∀ j, before.length < j → j ≤ before.length + 1 + i →
        family.opensAt (before ++ header :: rest) j = false := by
  have hopens : ∀ d, family.opensAt (before ++ header :: rest) (before.length + 1 + d) = false ↔
      ∀ line ∈ rest[d]?, family.nameIn? (trim line) = none := by
    intro d
    rw [opensAt, getElem?_behind, Option.any_eq_false]
    simp
  rw [forall_mem_take_succ_iff]
  simp only [← hopens]
  constructor
  · intro hplain j hlow hhigh
    obtain ⟨d, rfl⟩ : ∃ d, j = before.length + 1 + d := ⟨j - before.length - 1, by omega⟩
    exact hplain d (by omega)
  · intro hplain d hd
    exact hplain _ (by omega) (by omega)

section

variable {family : Family} {lines : List Text} {n k : Nat}

/-- The function of a header takes in the lines of its block up to the next header. -/
theorem covers_iff_of_spanAt (hfamily : family ≠ .indentation) {before : List Text}
    {header : Text} {rest : List Text} {span : Span}
    (h : family.spanAt before.length header rest = some span) (hk : before.length < k) :
    span.Covers (k + 1) ↔
      InBlock (before ++ header :: rest) before.length k
        ∧ ∀ j, before.length < j → j ≤ k →
          family.opensAt (before ++ header :: rest) j = false := by
  obtain ⟨i, rfl⟩ : ∃ i, k = before.length + 1 + i := ⟨k - before.length - 1, by omega⟩
  rw [Family.spanAt_eq_bracedSpanAt hfamily] at h
  obtain ⟨name, -, rfl⟩ := Option.map_eq_some_iff.1 h
  rw [inBlock_split_iff, ← Family.forall_mem_take_iff]
  by_cases hclosed : braceBalance header ≤ 0
  · -- the braces are closed on the header, so that nothing behind it is taken in
    rw [if_pos hclosed]
    constructor
    · rintro ⟨-, hlast⟩
      rw [oneLineSpan_last] at hlast
      omega
    · rintro ⟨⟨-, hopen, -⟩, -⟩
      omega
  · rw [if_neg hclosed]
    have hextent : (Span.onLines name (before.length + 2) (before.length + 1
        + bracedExtent family.nameIn? (braceBalance header) rest)).Covers
          ((before.length + 1 + i : Nat) + 1) ↔
        i < bracedExtent family.nameIn? (braceBalance header) rest := by
      simp only [Span.Covers, Span.onLines]
      omega
    have hopen : 0 < braceBalance header := by omega
    rw [hextent, lt_bracedExtent_iff]
    constructor
    · rintro ⟨hlength, hplain, hbalance⟩
      exact ⟨⟨hlength, hopen, hbalance⟩, hplain⟩
    · rintro ⟨⟨hlength, -, hbalance⟩, hplain⟩
      exact ⟨hlength, hplain, hbalance⟩

/-- A line is taken in just when it stands in the block of the last header in front of it. -/
theorem exists_covers_iff (hfamily : family ≠ .indentation) (hn : family.opensAt lines n = true)
    (hk : n < k) (hplain : ∀ j, n < j → j ≤ k → family.opensAt lines j = false) :
    (∃ span ∈ functionSpans family lines, span.Covers (k + 1)) ↔ InBlock lines n k := by
  rw [functionSpans_eq]
  constructor
  · rintro ⟨span, hspan, hcovers⟩
    obtain ⟨before, header, rest, rfl, hspanAt⟩ := mem_spansFrom_iff.1 hspan
    rw [Nat.zero_add] at hspanAt
    obtain ⟨hname, hplaced⟩ := placed_of_spanAt hspanAt
    have hheader : family.opensAt (before ++ header :: rest) before.length = true := by
      rw [family.opensAt_split, hname]
      rfl
    have hfirst : ((before.length : Nat) + 1 : Int) ≤ k + 1 :=
      Int.le_trans hplaced.first_bounds.1 hcovers.1
    -- neither an earlier header nor a later one takes the line in
    have hlate : ¬ n < before.length := by
      intro hlt
      rw [hplain before.length hlt (by omega)] at hheader
      cases hheader
    obtain ⟨hblock, hnext⟩ := (covers_iff_of_spanAt hfamily hspanAt (by omega)).1 hcovers
    have hearly : ¬ before.length < n := by
      intro hlt
      rw [hnext n hlt (by omega)] at hn
      cases hn
    have hsame : before.length = n := by omega
    rwa [hsame] at hblock
  · intro hblock
    obtain ⟨before, header, rest, rfl, rfl, hname⟩ := Family.exists_split_of_opensAt hn
    rw [← family.isSome_spanAt (0 + before.length) header rest] at hname
    obtain ⟨span, hspanAt⟩ := Option.isSome_iff_exists.1 hname
    refine ⟨span, mem_spansFrom_iff.2 ⟨before, header, rest, rfl, hspanAt⟩, ?_⟩
    rw [Nat.zero_add] at hspanAt
    exact (covers_iff_of_spanAt hfamily hspanAt hk).2 ⟨hblock, hplain⟩

/-! ## Lines behind an inner function -/

theorem exists_last_header (hn : family.opensAt lines n = true) (hk : n ≤ k) :
    ∃ m, n ≤ m ∧ m ≤ k ∧ family.opensAt lines m = true
      ∧ ∀ j, m < j → j ≤ k → family.opensAt lines j = false := by
  refine ⟨Nat.findGreatest (fun j => family.opensAt lines j = true) k,
    Nat.le_findGreatest hk hn, Nat.findGreatest_le k, ?_, ?_⟩
  · exact Nat.findGreatest_spec (P := fun j => family.opensAt lines j = true) hk hn
  · intro j hlow hhigh
    exact Bool.eq_false_iff.2 (Nat.findGreatest_is_greatest hlow hhigh)

theorem spans_of_opensAt (hlimit : lines.length ≤ lineLimit)
    (hn : family.opensAt lines n = true) :
    (extractLines lines family).spans = functionSpans family lines := by
  rcases extractLines_cases lines family with ⟨hmany, -⟩ | ⟨-, hnil, -⟩ | ⟨-, -, he⟩
  · omega
  · obtain ⟨before, header, rest, rfl, -, hname⟩ := Family.exists_split_of_opensAt hn
    rw [functionSpans_eq_nil_iff] at hnil
    simp [hname] at hnil
  · rw [he]

end

/-- The loop of an outer function behind an inner one is in no span. -/
theorem outer_lines_hidden :
    let source := ("function outer(a) \x7b\n  function inner(b) \x7b\n    return b;\n  \x7d\n"
      ++ "  for (const x of a) \x7b\n    use(x);\n  \x7d\n\x7d\n").toList
    let lines := splitLines source
    familyOfTag "js".toList = .script ∧ lines.length ≤ 10000
      ∧ Family.script.opensAt lines 0 = true ∧ InBlock lines 0 4
      ∧ (lines[4]?.any fun line => Body.isLoopStart .script (trim line)) = true
      ∧ Family.script.opensAt lines 4 = false
      ∧ ¬ ∃ span ∈ (extract source "js".toList).spans, span.Covers (4 + 1) := by
  decide +kernel

/-- In a text of at most 10000 lines in a language with braces, every line of the block behind a
header is in a span or is a header, unless an inner function is closed in front of it: the last
header in front of the line is then a later one, and the line is behind the block of that header
and in no span. -/
theorem block_covered (source tag : Text) (n k : Nat) :
    let lines := splitLines source
    let family := familyOfTag tag
    let covered := ∃ span ∈ (extract source tag).spans, span.Covers (k + 1)
    family ≠ .indentation → lines.length ≤ 10000 → family.opensAt lines n = true →
      InBlock lines n k →
      covered ∨ family.opensAt lines k = true
        ∨ (¬ covered ∧ ∃ m, n < m ∧ m < k ∧ family.opensAt lines m = true
          ∧ (∀ j, m < j → j ≤ k → family.opensAt lines j = false) ∧ ¬ InBlock lines m k) := by
  intro lines family covered hfamily hlimit hn hblock
  have hspans : (extract source tag).spans = functionSpans family lines :=
    spans_of_opensAt hlimit hn
  obtain ⟨m, hnm, hmk, hm, hplain⟩ := exists_last_header hn (Nat.le_of_lt hblock.1)
  by_cases hself : m = k
  · rw [hself] at hm
    exact Or.inr (Or.inl hm)
  have hlt : m < k := by omega
  have hcovered : covered ↔ InBlock lines m k := by
    show (∃ span ∈ (extract source tag).spans, _) ↔ _
    rw [hspans]
    exact exists_covers_iff hfamily hm hlt hplain
  by_cases hinner : InBlock lines m k
  · exact Or.inl (hcovered.2 hinner)
  · have hne : n ≠ m := by
      rintro rfl
      exact hinner hblock
    exact Or.inr (Or.inr ⟨mt hcovered.1 hinner, m, by omega, hlt, hm, hplain, hinner⟩)

/-- The lines of an inner function stand in the block of the outer one and in a span. -/
theorem block_covered_inner :
    let source := ("function outer(a) \x7b\n  function inner(b) \x7b\n    return b;\n"
      ++ "  \x7d\n\x7d\n").toList
    let lines := splitLines source
    familyOfTag "js".toList ≠ .indentation ∧ lines.length ≤ 10000
      ∧ (familyOfTag "js".toList).opensAt lines 0 = true ∧ InBlock lines 0 2
      ∧ ∃ span ∈ (extract source "js".toList).spans, span.Covers (2 + 1) := by
  intro source lines
  have hfamily : familyOfTag "js".toList ≠ .indentation := by decide +kernel
  have hlimit : lines.length ≤ 10000 := by decide +kernel
  have hheader : (familyOfTag "js".toList).opensAt lines 0 = true := by decide +kernel
  have hblock : InBlock lines 0 2 := by decide +kernel
  refine ⟨hfamily, hlimit, hheader, hblock, ?_⟩
  rcases block_covered source "js".toList 0 2 hfamily hlimit hheader hblock with
    hcovered | hopens | ⟨-, m, hlow, hhigh, -, -, houtside⟩
  · exact hcovered
  · have hplain : (familyOfTag "js".toList).opensAt lines 2 = false := by decide +kernel
    rw [hplain] at hopens
    cases hopens
  · -- the last header is the inner one, and its block reaches the line
    obtain rfl : m = 1 := by omega
    exact absurd (by decide +kernel : InBlock lines 1 2) houtside

end GrowthEstimate
