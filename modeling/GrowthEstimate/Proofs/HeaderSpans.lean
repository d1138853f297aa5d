import GrowthEstimate.Extraction
import Mathlib.Algebra.Ring.Int.Defs

/-!
# One span for each header

The search for functions reads the lines once and carries the function that is open.  The same
spans come out when each header is looked at on its own: how far its function reaches depends on
the lines behind it alone.

* `indentedSpans_eq`, `bracedSpans_eq`: the search gives the open function, ended where it has to
  end, and then one span for each header to come;
* `functionSpans_eq`: the functions of a text are the spans of its headers, in their order;
* `lt_indentedExtent_iff`, `lt_bracedExtent_iff`: which lines a function takes in;
* `placed_of_spanAt`: where the span of a header stands.
-/

namespace GrowthEstimate

open Text Header

/-! ## Headers -/

/-- The name by which a trimmed line opens a function. -/
def Family.nameIn? : Family → Text → Option Text
  | .indentation => indentedName?
  | .brace | .generic => bracedName?
  | .script => scriptName?

/-- Whether a trimmed line is a header.  In an indented language it is one also when its name
cannot be read. -/
def Family.isHeader (family : Family) (line : Text) : Bool :=
  match family with
  | .indentation => isIndented line
  | .brace | .script | .generic => (family.nameIn? line).isSome

theorem Family.isHeader_of_nameIn? {family : Family} {line name : Text}
    (h : family.nameIn? line = some name) : family.isHeader line = true := by
  cases family with
  | indentation => exact isIndented_of_indentedName? h
  | brace | script | generic => rw [isHeader, h]; rfl

/-! ## The lines around a header -/

section

variable {before : List Text} {header : Text} {rest : List Text}

theorem getElem?_header : (before ++ header :: rest)[before.length]? = some header := by
  simp

theorem getElem?_behind (d : Nat) :
    (before ++ header :: rest)[before.length + 1 + d]? = rest[d]? := by
  have hd : before.length + 1 + d - before.length = d + 1 := by omega
  rw [List.getElem?_append_right (by omega), hd, List.getElem?_cons_succ]

theorem length_split : (before ++ header :: rest).length = before.length + 1 + rest.length := by
  simp
  omega

theorem forall_mem_take_succ_iff {p : Text → Prop} {i : Nat} :
    (∀ line ∈ rest.take (i + 1), p line) ↔ ∀ d ≤ i, ∀ line ∈ rest[d]?, p line := by
  simp only [Option.mem_def, List.getElem?_eq_some_iff, List.mem_take_iff_getElem]
  constructor
  · rintro h d hd line ⟨hlt, rfl⟩
    exact h _ ⟨d, by omega, rfl⟩
  · rintro h line ⟨d, hlt, rfl⟩
    exact h d (by omega) _ ⟨by omega, rfl⟩

end

/-! ## How far a function reaches -/

def endsIndented (indent : Nat) (line : Text) : Bool :=
  !(trim line).isEmpty && (isIndented (trim line) || indentOf line ≤ indent)

/-- How many of the lines behind a header of the given indent belong to its function. -/
def indentedExtent (indent : Nat) (lines : List Text) : Nat :=
  (lines.takeWhile fun line => !endsIndented indent line).length

/-- How many of the lines belong to a function with the given balance of braces.  The line that
closes its braces is among them, the next header is not. -/
def bracedExtent (opener : Text → Option Text) : (balance : Int) → List Text → Nat
  | _, [] => 0
  | balance, line :: rest =>
    if (opener (trim line)).isSome then 0
    else if balance + braceBalance line ≤ 0 then 1
    else bracedExtent opener (balance + braceBalance line) rest + 1

/-- The span of an indented header with `read` lines in front of it and `rest` behind it. -/
def indentedSpanAt (read : Nat) (line : Text) (rest : List Text) : Option Span :=
  (indentedName? (trim line)).map fun name =>
    Span.onLines name (read + 2) (read + 1 + indentedExtent (indentOf line) rest)

/-- The span of a braced header with `read` lines in front of it and `rest` behind it. -/
def bracedSpanAt (opener : Text → Option Text) (read : Nat) (line : Text) (rest : List Text) :
    Option Span :=
  (opener (trim line)).map fun name =>
    if braceBalance line ≤ 0 then oneLineSpan name (trim line) (read + 1)
    else Span.onLines name (read + 2) (read + 1 + bracedExtent opener (braceBalance line) rest)

def Family.spanAt : Family → Nat → Text → List Text → Option Span
  | .indentation => indentedSpanAt
  | .brace | .generic => bracedSpanAt bracedName?
  | .script => bracedSpanAt scriptName?

/-- The spans that `spanAt` gives for the lines behind `read` others, in order. -/
def spansFrom (spanAt : Nat → Text → List Text → Option Span) : Nat → List Text → List Span
  | _, [] => []
  | read, line :: rest => (spanAt read line rest).toList ++ spansFrom spanAt (read + 1) rest

theorem mem_spansFrom_iff {spanAt : Nat → Text → List Text → Option Span} {lines : List Text}
    {read : Nat} {span : Span} :
    span ∈ spansFrom spanAt read lines ↔
      ∃ before line rest, lines = before ++ line :: rest
        ∧ spanAt (read + before.length) line rest = some span := by
  induction lines generalizing read with
  | nil => simp [spansFrom]
  | cons line rest ih =>
    rw [spansFrom, List.mem_append, Option.mem_toList, ih]
    constructor
    · rintro (h | ⟨before, line', rest', rfl, h⟩)
      · exact ⟨[], line, rest, rfl, h⟩
      · refine ⟨line :: before, line', rest', rfl, ?_⟩
        rw [← h, List.length_cons]
        congr 1
        omega
    · rintro ⟨before, line', rest', hsplit, h⟩
      cases before with
      | nil =>
        obtain ⟨rfl, rfl⟩ := List.cons.inj hsplit
        exact Or.inl h
      | cons first before =>
        obtain ⟨rfl, rfl⟩ := List.cons.inj hsplit
        refine Or.inr ⟨before, line', rest', rfl, ?_⟩
        rw [← h, List.length_cons]
        congr 1
        omega

/-- A change of every line that no span notices. -/
theorem spansFrom_map {spanAt : Nat → Text → List Text → Option Span} {change : Text → Text}
    (h : ∀ read line rest, spanAt read (change line) (rest.map change) = spanAt read line rest)
    (read : Nat) (lines : List Text) :
    spansFrom spanAt read (lines.map change) = spansFrom spanAt read lines := by
  induction lines generalizing read with
  | nil => rfl
  | cons line rest ih => rw [List.map_cons, spansFrom, spansFrom, h, ih]

/-! ## The search for functions -/

theorem indentedExtent_cons (indent : Nat) (line : Text) (rest : List Text) :
    indentedExtent indent (line :: rest) =
      if endsIndented indent line then 0 else indentedExtent indent rest + 1 := by
  unfold indentedExtent
  cases h : endsIndented indent line
  · rw [List.takeWhile_cons_of_pos (by simp [h])]
    rfl
  · rw [List.takeWhile_cons_of_neg (by simp [h])]
    rfl

theorem endsIndented_of_blank {line : Text} (h : (trim line).isEmpty = true) (indent : Nat) :
    endsIndented indent line = false := by
  simp [endsIndented, h]

theorem isEndedBy_eq {line : Text} (h : (trim line).isEmpty = false) (f : OpenIndented) :
    f.isEndedBy line = endsIndented f.indent line := by
  simp [endsIndented, OpenIndented.isEndedBy, h]

theorem indentedName?_of_blank {line : Text} (h : (trim line).isEmpty = true) :
    indentedName? (trim line) = none := by
  rw [List.isEmpty_iff.1 h]
  rfl

/-- A header ends the open function, also one whose name cannot be read. -/
theorem endsIndented_of_isIndented {line : Text} (h : isIndented (trim line) = true)
    (indent : Nat) : endsIndented indent line = true := by
  have hne : (trim line).isEmpty = false := by
    cases hb : (trim line).isEmpty with
    | false => rfl
    | true =>
      rw [List.isEmpty_iff.1 hb] at h
      cases h
  simp [endsIndented, hne, h]

/-- No function is kept open beside the one that a header opens. -/
theorem endsIndented_of_name {line name : Text} (h : indentedName? (trim line) = some name)
    (indent : Nat) : endsIndented indent line = true :=
  endsIndented_of_isIndented (isIndented_of_indentedName? h) indent

/-- The span that an open function comes to, with `read` lines read and `lines` to come. -/
def OpenIndented.finished (read : Nat) (lines : List Text) (f : OpenIndented) : Span :=
  f.endingAt (read + indentedExtent f.indent lines)

theorem OpenIndented.finished_of_ends {f : OpenIndented} {line : Text}
    (h : endsIndented f.indent line = true) (read : Nat) (rest : List Text) :
    f.finished read (line :: rest) = f.endingAt read := by
  rw [finished, indentedExtent_cons, h]
  rfl

theorem OpenIndented.finished_of_stays {f : OpenIndented} {line : Text}
    (h : endsIndented f.indent line = false) (read : Nat) (rest : List Text) :
    f.finished read (line :: rest) = f.finished (read + 1) rest := by
  have hextent : read + indentedExtent f.indent (line :: rest) =
      read + 1 + indentedExtent f.indent rest := by
    rw [indentedExtent_cons, h]
    simp only [Bool.false_eq_true, if_false]
    omega
  rw [finished, finished, hextent]

theorem indentedSpans_eq (read : Nat) (current : Option OpenIndented) (lines : List Text) :
    indentedSpans read current lines =
      (current.map (·.finished read lines)).toList ++ spansFrom indentedSpanAt read lines := by
  induction lines generalizing read current with
  | nil => simp [spansFrom, OpenIndented.finished, indentedExtent]
  | cons line rest ih =>
    rw [indentedSpans, spansFrom]
    by_cases hb : (trim line).isEmpty = true
    · -- a blank line neither ends nor opens anything
      rw [if_pos hb, ih, indentedSpanAt, indentedName?_of_blank hb]
      cases current with
      | none => rfl
      | some f =>
        rw [Option.map_some, Option.map_some,
          OpenIndented.finished_of_stays (endsIndented_of_blank hb _)]
        rfl
    · have hb' : (trim line).isEmpty = false := by simpa using hb
      rw [if_neg hb]
      simp only [ih]
      cases hname : indentedName? (trim line) with
      | some name =>
        cases current with
        | none => simp [indentedSpanAt, hname, OpenIndented.finished, OpenIndented.endingAt]
        | some f =>
          have hends : endsIndented f.indent line = true := endsIndented_of_name hname _
          have hf : f.isEndedBy line = true := (isEndedBy_eq hb' f).trans hends
          simp only [Option.map_some, OpenIndented.finished_of_ends hends]
          simp [indentedSpanAt, hname, Option.filter, hf, OpenIndented.finished,
            OpenIndented.endingAt]
      | none =>
        cases current with
        | none => simp [indentedSpanAt, hname]
        | some f =>
          cases hends : endsIndented f.indent line with
          | true =>
            have hf : f.isEndedBy line = true := (isEndedBy_eq hb' f).trans hends
            simp [indentedSpanAt, hname, Option.filter, hf, OpenIndented.finished_of_ends hends]
          | false =>
            have hf : f.isEndedBy line = false := (isEndedBy_eq hb' f).trans hends
            simp [indentedSpanAt, hname, Option.filter, hf, OpenIndented.finished_of_stays hends]

/-- The span that an open function comes to, with `read` lines read and `lines` to come. -/
def OpenBraced.finished (opener : Text → Option Text) (read : Nat) (lines : List Text)
    (f : OpenBraced) : Span :=
  f.endingAt (read + bracedExtent opener f.balance lines)

section

variable {opener : Text → Option Text} {line : Text}

theorem OpenBraced.finished_of_header {name : Text} (h : opener (trim line) = some name)
    (read : Nat) (rest : List Text) (f : OpenBraced) :
    f.finished opener read (line :: rest) = f.endingAt read := by
  rw [finished, bracedExtent, h]
  rfl

theorem OpenBraced.finished_of_closed {f : OpenBraced} (h : opener (trim line) = none)
    (hclosed : f.balance + braceBalance line ≤ 0) (read : Nat) (rest : List Text) :
    f.finished opener read (line :: rest) = f.endingAt (read + 1) := by
  rw [finished, bracedExtent, h, if_pos hclosed]
  rfl

theorem OpenBraced.finished_of_open {f : OpenBraced} (h : opener (trim line) = none)
    (hopen : ¬ f.balance + braceBalance line ≤ 0) (read : Nat) (rest : List Text) :
    f.finished opener read (line :: rest) =
      { f with balance := f.balance + braceBalance line }.finished opener (read + 1) rest := by
  have hextent : read + bracedExtent opener f.balance (line :: rest) =
      read + 1 + bracedExtent opener (f.balance + braceBalance line) rest := by
    rw [bracedExtent, h, if_neg hopen]
    simp only [Option.isSome_none, Bool.false_eq_true, if_false]
    omega
  rw [finished, hextent]
  rfl

end

theorem bracedSpans_eq (opener : Text → Option Text) (read : Nat) (current : Option OpenBraced)
    (lines : List Text) :
    bracedSpans opener read current lines =
      (current.map (·.finished opener read lines)).toList
        ++ spansFrom (bracedSpanAt opener) read lines := by
  induction lines generalizing read current with
  | nil => simp [spansFrom, OpenBraced.finished, bracedExtent]
  | cons line rest ih =>
    rw [spansFrom]
    cases hname : opener (trim line) with
    | some name =>
      simp only [OpenBraced.finished_of_header hname]
      by_cases hclosed : braceBalance line ≤ 0
      · simp [bracedSpans, hname, hclosed, bracedSpanAt, ih]
      · simp [bracedSpans, hname, hclosed, bracedSpanAt, ih, OpenBraced.finished,
          OpenBraced.endingAt]
    | none =>
      cases current with
      | none => simp [bracedSpans, hname, bracedSpanAt, ih]
      | some f =>
        by_cases hclosed : f.balance + braceBalance line ≤ 0
        · simp [bracedSpans, hname, hclosed, bracedSpanAt, ih,
            OpenBraced.finished_of_closed hname hclosed]
        · simp [bracedSpans, hname, hclosed, bracedSpanAt, ih,
            OpenBraced.finished_of_open hname hclosed]

theorem functionSpans_eq (family : Family) (lines : List Text) :
    functionSpans family lines = spansFrom family.spanAt 0 lines := by
  cases family with
  | indentation => exact indentedSpans_eq 0 none lines
  | brace | script | generic => exact bracedSpans_eq _ 0 none lines

theorem Family.spanAt_eq_bracedSpanAt {family : Family} (h : family ≠ .indentation) :
    family.spanAt = bracedSpanAt family.nameIn? := by
  cases family with
  | indentation => exact absurd rfl h
  | brace | script | generic => rfl

theorem Family.isSome_spanAt (family : Family) (read : Nat) (line : Text) (rest : List Text) :
    (family.spanAt read line rest).isSome = (family.nameIn? (trim line)).isSome := by
  cases family <;> simp [spanAt, indentedSpanAt, bracedSpanAt, nameIn?]

/-- A text has no functions when no line of it opens one. -/
theorem functionSpans_eq_nil_iff {family : Family} {lines : List Text} :
    functionSpans family lines = [] ↔
      (lines.any fun line => (family.nameIn? (trim line)).isSome) = false := by
  rw [functionSpans_eq]
  generalize 0 = read
  induction lines generalizing read with
  | nil => simp [spansFrom]
  | cons line rest ih =>
    rw [spansFrom, List.append_eq_nil_iff, ih, List.any_cons, Bool.or_eq_false_iff,
      ← family.isSome_spanAt read line rest]
    cases family.spanAt read line rest <;> simp

/-! ## Where the span of a header stands -/

/-- The span of a header with `read` lines in front of it and `rest` behind it stands on the
header itself when it carries its body.  Otherwise it stands on the next few lines, none of which
is a header; they may be none. -/
inductive Family.Placed (family : Family) (read : Nat) (rest : List Text) : Span → Prop
  | oneLine (name body : Text) :
    Placed family read rest { Span.onLines name (read + 1) (read + 1) with inlineBody := some body }
  | block (name : Text) (count : Nat) (inside : count ≤ rest.length)
      (plain : ∀ line ∈ rest.take count, family.isHeader (trim line) = false) :
    Placed family read rest (Span.onLines name (read + 2) (read + 1 + count))

theorem indentedExtent_le (indent : Nat) (lines : List Text) :
    indentedExtent indent lines ≤ lines.length :=
  (List.takeWhile_prefix _).length_le

theorem take_indentedExtent (indent : Nat) (lines : List Text) :
    lines.take (indentedExtent indent lines) =
      lines.takeWhile fun line => !endsIndented indent line :=
  (List.prefix_iff_eq_take.1 (List.takeWhile_prefix _)).symm

theorem isIndented_eq_false_of_within {indent : Nat} {line : Text}
    (h : endsIndented indent line = false) : isIndented (trim line) = false := by
  cases hb : (trim line).isEmpty with
  | true =>
    rw [List.isEmpty_iff.1 hb]
    rfl
  | false =>
    simp only [endsIndented, hb, Bool.not_false, Bool.true_and, Bool.or_eq_false_iff] at h
    exact h.1

/-- A line belongs to a function when no header stands up to it and the braces of the function are
still open in front of it. -/
theorem lt_bracedExtent_iff {opener : Text → Option Text} {balance : Int} {lines : List Text}
    {i : Nat} :
    i < bracedExtent opener balance lines ↔
      i < lines.length ∧ (∀ line ∈ lines.take (i + 1), opener (trim line) = none)
        ∧ ∀ j < i, 0 < balance + ((lines.take (j + 1)).map braceBalance).sum := by
  induction lines generalizing balance i with
  | nil => simp [bracedExtent]
  | cons line rest ih =>
    rw [bracedExtent]
    cases hname : opener (trim line) with
    | some name => simp [hname]
    | none =>
      simp only [Option.isSome_none, Bool.false_eq_true, if_false]
      by_cases hclosed : balance + braceBalance line ≤ 0
      · rw [if_pos hclosed]
        constructor
        · intro hi
          obtain rfl : i = 0 := by omega
          simp [hname]
        · rintro ⟨-, -, hopen⟩
          by_cases hi : i = 0
          · omega
          · have hfirst := hopen 0 (by omega)
            simp at hfirst
            omega
      · rw [if_neg hclosed]
        cases i with
        | zero => simp [hname]
        | succ i =>
          have hfirst : 0 < balance + braceBalance line := by omega
          rw [Nat.succ_lt_succ_iff, ih, List.length_cons, Nat.succ_lt_succ_iff,
            List.take_succ_cons, List.forall_mem_cons, Nat.forall_lt_succ_left]
          simp [hname, hfirst, Int.add_assoc]

theorem bracedExtent_le (opener : Text → Option Text) (balance : Int) (lines : List Text) :
    bracedExtent opener balance lines ≤ lines.length := by
  apply Nat.le_of_not_lt
  intro hlonger
  obtain ⟨hlast, -, -⟩ := lt_bracedExtent_iff.1 hlonger
  omega

theorem opener_eq_none_of_mem_take {opener : Text → Option Text} {balance : Int}
    {lines : List Text} {line : Text}
    (h : line ∈ lines.take (bracedExtent opener balance lines)) : opener (trim line) = none := by
  cases hextent : bracedExtent opener balance lines with
  | zero => simp [hextent] at h
  | succ i =>
    rw [hextent] at h
    have hlast : i < bracedExtent opener balance lines := by omega
    exact (lt_bracedExtent_iff.1 hlast).2.1 line h

theorem oneLineSpan_last (name line : Text) (number : Nat) :
    (oneLineSpan name line number).last = number := by
  unfold oneLineSpan
  simp only
  split <;> rfl

theorem placed_of_indentedSpanAt {read : Nat} {line : Text} {rest : List Text} {span : Span}
    (h : indentedSpanAt read line rest = some span) :
    indentedName? (trim line) = some span.name ∧ Family.indentation.Placed read rest span := by
  obtain ⟨name, hname, rfl⟩ := Option.map_eq_some_iff.1 h
  refine ⟨hname, .block name _ (indentedExtent_le _ _) ?_⟩
  intro inner hinner
  rw [take_indentedExtent] at hinner
  have within : (!endsIndented (indentOf line) inner) = true :=
    List.all_eq_true.1 List.all_takeWhile inner hinner
  exact isIndented_eq_false_of_within (by simpa using within)

theorem placed_of_bracedSpanAt {family : Family} {opener : Text → Option Text}
    (hopener : ∀ line, family.isHeader line = (opener line).isSome)
    {read : Nat} {line : Text} {rest : List Text} {span : Span}
    (h : bracedSpanAt opener read line rest = some span) :
    opener (trim line) = some span.name ∧ family.Placed read rest span := by
  obtain ⟨name, hname, rfl⟩ := Option.map_eq_some_iff.1 h
  split
  · unfold oneLineSpan
    simp only
    split
    · exact ⟨hname, .block name 0 (Nat.zero_le _) (by simp)⟩
    · exact ⟨hname, .oneLine name _⟩
  · refine ⟨hname, .block name _ (bracedExtent_le _ _ _) ?_⟩
    intro inner hinner
    rw [hopener, opener_eq_none_of_mem_take hinner]
    rfl

theorem placed_of_spanAt {family : Family} {read : Nat} {line : Text} {rest : List Text}
    {span : Span} (h : family.spanAt read line rest = some span) :
    family.nameIn? (trim line) = some span.name ∧ family.Placed read rest span := by
  cases family with
  | indentation => exact placed_of_indentedSpanAt h
  | brace | script | generic => exact placed_of_bracedSpanAt (fun _ => rfl) h

end GrowthEstimate
