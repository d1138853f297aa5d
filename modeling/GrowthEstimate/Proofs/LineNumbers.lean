import GrowthEstimate.Proofs.NestedFunctions

/-!
# Functions by line numbers

Where the function of a header ends can be said by line numbers alone: at the first line behind the
header that ends it.  What the search has open when it comes to the header does not matter.

* `firstBehind?_eq_some_iff`: the first line behind another one at which something ends;
* `lastIndented_split`, `lastBraced_split`: the last line of a function, by what stands behind its
  header;
* `indentedSpans_eq_filterMap`, `bracedSpans_eq_filterMap`: the functions of a text, one for each
  header, in the order of their numbers.
-/

namespace GrowthEstimate

open Text Header

/-! ## The first line that ends something -/

/-- The first line behind line `i`, of `count` lines, at which something `ends`. -/
def firstBehind? (count i : Nat) (ends : Nat → Bool) : Option Nat :=
  (List.range count).find? fun j => i < j && ends j

section

variable {count i : Nat} {ends : Nat → Bool}

theorem firstBehind?_eq_some_iff {j : Nat} :
    firstBehind? count i ends = some j ↔
      i < j ∧ j < count ∧ ends j = true ∧ ∀ k, i < k → k < j → ends k = false := by
  rw [firstBehind?, List.find?_range_eq_some]
  simp only [Bool.and_eq_true, decide_eq_true_eq, List.mem_range, Bool.not_eq_true',
    Bool.and_eq_false_imp]
  constructor
  · rintro ⟨⟨hij, hends⟩, hj, hfirst⟩
    exact ⟨hij, hj, hends, fun k hik hkj => hfirst k hkj hik⟩
  · rintro ⟨hij, hj, hends, hfirst⟩
    exact ⟨⟨hij, hends⟩, hj, fun k hkj hik => hfirst k hik hkj⟩

theorem firstBehind?_eq_none_iff :
    firstBehind? count i ends = none ↔ ∀ j, i < j → j < count → ends j = false := by
  simp only [firstBehind?, List.find?_eq_none, List.mem_range, Bool.and_eq_true,
    decide_eq_true_eq, not_and, Bool.not_eq_true]
  constructor
  · intro h j hij hj
    exact h j hj hij
  · intro h j hj hij
    exact h j hij hj

/-- The search behind a line with `behind` lines behind it. -/
theorem firstBehind?_cases (behind : Nat) :
    (firstBehind? (i + 1 + behind) i ends = none ∧ ∀ d < behind, ends (i + 1 + d) = false)
      ∨ ∃ d < behind, firstBehind? (i + 1 + behind) i ends = some (i + 1 + d)
        ∧ ends (i + 1 + d) = true ∧ ∀ c < d, ends (i + 1 + c) = false := by
  cases hfirst : firstBehind? (i + 1 + behind) i ends with
  | none =>
    rw [firstBehind?_eq_none_iff] at hfirst
    exact Or.inl ⟨rfl, fun d hd => hfirst _ (by omega) (by omega)⟩
  | some j =>
    obtain ⟨hij, hj, hends, hplain⟩ := firstBehind?_eq_some_iff.1 hfirst
    obtain ⟨d, rfl⟩ : ∃ d, j = i + 1 + d := ⟨j - i - 1, by omega⟩
    exact Or.inr ⟨d, by omega, rfl, hends, fun c hc => hplain _ (by omega) (by omega)⟩

end

/-! ## One header after the other -/

def headerName? (opener : Text → Option Text) (lines : List Text) (i : Nat) : Option Text :=
  lines[i]?.bind fun line => opener (trim line)

/-- Spans that depend on the lines behind each header, by the numbers of the headers. -/
theorem spansFrom_eq_filterMap {spanAt : Nat → Text → List Text → Option Span}
    {headerSpan? : List Text → Nat → Option Span}
    (h : ∀ before header rest, spanAt before.length header rest =
      headerSpan? (before ++ header :: rest) before.length) (before lines : List Text) :
    spansFrom spanAt before.length lines =
      (List.range' before.length lines.length).filterMap (headerSpan? (before ++ lines)) := by
  induction lines generalizing before with
  | nil => rfl
  | cons line rest ih =>
    have hrest := ih (before ++ [line])
    rw [List.length_append, List.length_singleton, List.append_assoc, List.singleton_append]
      at hrest
    rw [spansFrom, hrest, List.length_cons, List.range'_succ, List.filterMap_cons, h]
    cases headerSpan? (before ++ line :: rest) before.length <;> rfl

/-! ## Indented functions -/

section

variable {before : List Text} {header : Text} {rest : List Text}

variable {opener : Text → Option Text}

/-- Whether line `j` ends the function that line `i` opens: it is a header, or the braces counted
from line `i` on are closed on it. -/
def endsBracedAt (opener : Text → Option Text) (lines : List Text) (i j : Nat) : Bool :=
  (headerName? opener lines j).isSome || balanceOver lines i j ≤ 0

/-- The last line, counted from 1, of the function that line `i` opens: the one in front of the next
header, or the one on which the braces are closed. -/
def lastBraced (opener : Text → Option Text) (lines : List Text) (i : Nat) : Nat :=
  match firstBehind? lines.length i (endsBracedAt opener lines i) with
  | none => lines.length
  | some j => if (headerName? opener lines j).isSome then j else j + 1

theorem headerName?_of_endsBracedAt {lines : List Text} {i j : Nat}
    (h : endsBracedAt opener lines i j = false) : headerName? opener lines j = none := by
  simp only [endsBracedAt, Bool.or_eq_false_iff] at h
  simpa using h.1

theorem lt_bracedExtent_iff_endsAt {i : Nat} :
    let lines := before ++ header :: rest
    i < bracedExtent opener (braceBalance header) rest ↔
      i < rest.length ∧ headerName? opener lines (before.length + 1 + i) = none
        ∧ ∀ d < i, endsBracedAt opener lines before.length (before.length + 1 + d) = false := by
  intro lines
  have hname : ∀ d, headerName? opener lines (before.length + 1 + d) =
      rest[d]?.bind fun line => opener (trim line) := by
    intro d
    rw [headerName?, getElem?_behind]
  have hbalance : ∀ d, balanceOver lines before.length (before.length + 1 + d) =
      braceBalance header + ((rest.take (d + 1)).map braceBalance).sum := by
    intro d
    rw [← balanceOver_split, Nat.add_assoc, Nat.add_comm 1 d]
  simp only [lt_bracedExtent_iff, forall_mem_take_succ_iff, endsBracedAt, hname, hbalance,
    Bool.or_eq_false_iff, decide_eq_false_iff_not, Int.not_le, Option.isSome_eq_false_iff,
    Option.isNone_iff_eq_none, Option.bind_eq_none_iff]
  constructor
  · rintro ⟨hi, hplain, hopen⟩
    exact ⟨hi, hplain i (Nat.le_refl i), fun d hd => ⟨hplain d (Nat.le_of_lt hd), hopen d hd⟩⟩
  · rintro ⟨hi, hlast, hplain⟩
    refine ⟨hi, fun d hd => ?_, fun d hd => (hplain d hd).2⟩
    rcases Nat.lt_or_eq_of_le hd with hlt | rfl
    · exact (hplain d hlt).1
    · exact hlast

theorem lastBraced_split :
    lastBraced opener (before ++ header :: rest) before.length =
      before.length + 1 + bracedExtent opener (braceBalance header) rest := by
  have hinside := @lt_bracedExtent_iff_endsAt before header rest opener
  have hle := bracedExtent_le opener (braceBalance header) rest
  generalize bracedExtent opener (braceBalance header) rest = extent at *
  rw [lastBraced, length_split]
  rcases firstBehind?_cases rest.length with ⟨hnone, hplain⟩ | ⟨d, hd, hsome, hends, hplain⟩
  · have hwhole : ¬ extent < rest.length := fun hlt => Nat.lt_irrefl _ (hinside.2
      ⟨hlt, headerName?_of_endsBracedAt (hplain _ hlt), fun d hd => hplain d (by omega)⟩)
    rw [hnone]
    simp only
    omega
  · have hunder : ¬ extent < d := fun hlt => Nat.lt_irrefl _ (hinside.2
      ⟨by omega, headerName?_of_endsBracedAt (hplain _ hlt), fun c hc => hplain c (by omega)⟩)
    have hover : ¬ d + 1 < extent := by
      intro hlt
      rw [(hinside.1 hlt).2.2 d (Nat.lt_succ_self d)] at hends
      cases hends
    -- the line that closes the braces is taken in, the next header is not
    have hlast : d < extent ↔
        headerName? opener (before ++ header :: rest) (before.length + 1 + d) = none :=
      ⟨fun hlt => (hinside.1 hlt).2.1, fun hname => hinside.2 ⟨hd, hname, hplain⟩⟩
    rw [hsome]
    cases hname : headerName? opener (before ++ header :: rest) (before.length + 1 + d) with
    | none =>
      have hin := hlast.2 hname
      simp only [hname, Option.isSome_none, Bool.false_eq_true, if_false]
      omega
    | some name =>
      have hout : ¬ d < extent := by simp [hlast, hname]
      simp only [hname, Option.isSome_some, if_true]
      omega

end

/-- The body of a function on the line of its header.  There is none when only spaces and
semicolons stand behind the parameters. -/
def bodyOnHeader? (header : Text) : Option Text :=
  let body := unwrapBody (afterParameters header)
  if body.all (" ;".toList.contains ·) then none else some body

theorem oneLineSpan_eq (name header : Text) (number : Nat) :
    oneLineSpan name header number =
      match bodyOnHeader? header with
      | some body => { Span.onLines name number number with inlineBody := some body }
      | none => Span.onLines name (number + 1) number := by
  simp only [oneLineSpan, bodyOnHeader?]
  split <;> rfl

/-- The span of the braced function that line `i` opens. -/
def bracedHeaderSpan? (opener : Text → Option Text) (lines : List Text) (i : Nat) : Option Span :=
  lines[i]?.bind fun header => (opener (trim header)).map fun name =>
    if 0 < braceBalance header then Span.onLines name (i + 2) (lastBraced opener lines i)
    else
      match bodyOnHeader? (trim header) with
      | some body => { Span.onLines name (i + 1) (i + 1) with inlineBody := some body }
      | none => Span.onLines name (i + 2) (i + 1)

theorem bracedSpanAt_eq (opener : Text → Option Text) (before : List Text) (header : Text)
    (rest : List Text) :
    bracedSpanAt opener before.length header rest =
      bracedHeaderSpan? opener (before ++ header :: rest) before.length := by
  rw [bracedHeaderSpan?, getElem?_header, Option.bind_some, lastBraced_split, bracedSpanAt]
  congr 1
  funext name
  by_cases hopen : 0 < braceBalance header
  · rw [if_pos hopen, if_neg (Int.not_le.2 hopen)]
  · rw [if_neg hopen, if_pos (Int.not_lt.1 hopen), oneLineSpan_eq]

/-- In a text with braces each header, by whatever rule the names of headers are read, has a span,
and no other line has one.  With its braces closed on its own line the header is the whole function,
if there is a body behind the parameters, and otherwise the function is empty.  With braces left
open it reaches from the next line to the first line behind it that is a header, which is left out,
or on which the braces counted from it on are closed, which is taken in; to the end of the text if
there is none. -/
theorem bracedSpans_eq_filterMap (opener : Text → Option Text) (lines : List Text) :
    bracedSpans opener 0 none lines =
      (List.range lines.length).filterMap (bracedHeaderSpan? opener lines) := by
  rw [bracedSpans_eq, List.range_eq_range']
  exact spansFrom_eq_filterMap (bracedSpanAt_eq opener) [] lines

/-- A prototype, a function on one line, and one that the next header ends. -/
example :
    let lines := ["int f(int);", "int g(int a) \x7b return a; \x7d", "int h() \x7b", "int k() \x7b",
      "\x7d"].map String.toList
    (List.range 5).filterMap (bracedHeaderSpan? bracedName? lines) =
      [Span.onLines "f".toList 2 1,
        { Span.onLines "g".toList 2 2 with inlineBody := some "return a;".toList },
        Span.onLines "h".toList 4 3, Span.onLines "k".toList 5 5] := by
  decide +kernel

end GrowthEstimate
