import Mathlib.Data.Bool.AllAny
import GrowthEstimate.Proofs.HeaderSpans
import GrowthEstimate.Proofs.LeadingKeywords
import GrowthEstimate.Proofs.ParameterLists

/-!
# Functions on one line

A function that is written on one line has its body between the brace behind the parameters and the
last brace of the line.  The braces inside the body are its own, and what stands behind the last one
may be spaces, semicolons and commas.

* `unwrapBody_braces`: what is taken off around the body;
* `OneLineFunction.trim_line`: the line without its indent and the blanks at its end;
* `OneLineFunction.bracedName?_line`: the name that the line declares;
* `OneLineFunction.oneLineSpan_line`: the span of the line, with its body;
* `extract_oneLine`: the one span of the line.
-/

namespace GrowthEstimate

open Text Header

/-! ## Such a line -/

/-- A line with a header, parameters, a body in braces and what stands behind them. -/
def oneLine (header params body tail : Text) : Text :=
  header ++ '(' :: (params ++ ')' :: ' ' :: '{' :: (body ++ '}' :: tail))

/-- A function on one line.  Its header may be indented. -/
structure OneLineFunction where
  header : Text
  name : Text
  params : Text
  body : Text
  tail : Text
  header_plain : ∀ c ∈ header, c ≠ '(' ∧ c ≠ '=' ∧ c ≠ '{' ∧ c ≠ '}'
  first_word : ∀ word ∈ (words header).head?, word ∉ leadingKeywords
  last_word : (words header).getLast? = some name
  isQualifiedName_name : isQualifiedName name = true
  length_name : name.length < 100
  name_not_control : name ∉ controlKeywords
  params_balanced : IsBalanced params
  params_plain : ∀ c ∈ params, c ≠ '{' ∧ c ≠ '}'
  body_balance : body.count '{' = body.count '}'
  tail_plain : ∀ c ∈ tail, c = ' ' ∨ c = ';' ∨ c = ','
  no_arrow : occursIn "=>".toList (oneLine header params body tail) = false
  no_lineEnd : ∀ c ∈ oneLine header params body tail, isLineEnd c = false

def OneLineFunction.line (f : OneLineFunction) : Text := oneLine f.header f.params f.body f.tail

/-! ## Trims -/

theorem dropEndWhile_append_cons {p : Char → Bool} {c : Char} (h : p c = false) (s t : Text) :
    dropEndWhile p (s ++ c :: t) = s ++ c :: dropEndWhile p t := by
  have hrest : t.reverse.dropWhile p = [] ∨ t.reverse.dropWhile p ≠ [] := Classical.em _
  simp only [dropEndWhile, List.reverse_append, List.reverse_cons, List.append_assoc,
    List.dropWhile_append]
  rcases hrest with hnil | hne
  · simp [hnil, h]
  · simp [hne]

/-- A trim reaches no further than to characters that are no blanks. -/
theorem trim_append_cons {s : Text} {c : Char} (hs : trimStart s ≠ []) (hc : isBlank c = false)
    (t : Text) (u : Text) :
    trim (s ++ t ++ c :: u) = trimStart s ++ t ++ c :: trimEnd u := by
  have hstart : trimStart (s ++ t ++ c :: u) = trimStart s ++ t ++ c :: u := by
    rw [trimStart] at hs ⊢
    rw [List.append_assoc, List.dropWhile_append]
    simp [hs, trimStart]
  rw [trim, hstart, trimEnd, dropEndWhile_append_cons hc, trimEnd]

theorem words_trimStart (s : Text) : words (trimStart s) = words s := by
  have hpad : ∀ c ∈ s.takeWhile isBlank, isBlank c = true := fun c hc =>
    List.all_eq_true.1 List.all_takeWhile c hc
  calc words (trimStart s) = words (s.takeWhile isBlank ++ trimStart s) := (words_pad hpad _).symm
    _ = words s := congrArg words List.takeWhile_append_dropWhile

/-! ## The body -/

/-- The brace in front of the body is taken off, and the last one of the line. -/
theorem unwrapBody_braces (body : Text) {tail : Text}
    (htail : ∀ c ∈ tail, c = ' ' ∨ c = ';' ∨ c = ',') :
    unwrapBody (' ' :: '{' :: (body ++ '}' :: tail)) = trim body := by
  have hstops : ∀ c ∈ trimEnd tail, " ;,".toList.contains c = true := by
    intro c hc
    rcases htail c (mem_trimEnd hc) with rfl | rfl | rfl <;> rfl
  have htrim : trim (' ' :: '{' :: (body ++ '}' :: tail)) = '{' :: (body ++ '}' :: trimEnd tail) :=
    trim_append_cons (s := [' ', '{']) (c := '}') (by decide) (by decide) body tail
  have hclosing : dropEndWhile (" ;,".toList.contains ·) (body ++ '}' :: trimEnd tail) =
      body ++ ['}'] := by
    rw [List.append_cons, dropEndWhile_append hstops]
    exact dropEndWhile_append_cons (by decide) body []
  have hopening : unbraced ('{' :: (body ++ '}' :: trimEnd tail)) =
      if endsWith "\x7d".toList (body ++ ['}']) then (body ++ ['}']).dropLast
      else body ++ '}' :: trimEnd tail := by
    rw [← hclosing]
    rfl
  have hends : endsWith "\x7d".toList (body ++ ['}']) = true :=
    List.isSuffixOf_iff_suffix.2 (List.suffix_append body ['}'])
  have harrow : after? "=>".toList ('{' :: (body ++ '}' :: trimEnd tail)) = none := rfl
  rw [unwrapBody, htrim, harrow, Option.map_none, Option.getD_none, hopening, if_pos hends,
    List.dropLast_concat]

/-! ## The line of such a function -/

namespace OneLineFunction

variable (f : OneLineFunction)

theorem header_ne_nil : trimStart f.header ≠ [] := by
  intro hnil
  have hwords := words_trimStart f.header
  rw [hnil] at hwords
  have hlast := f.last_word
  rw [← hwords] at hlast
  cases hlast

theorem trim_line :
    trim f.line = oneLine (trimStart f.header) f.params f.body (trimEnd f.tail) := by
  have hline : f.line =
      f.header ++ ('(' :: (f.params ++ ')' :: ' ' :: '{' :: f.body)) ++ '}' :: f.tail := by
    simp [line, oneLine]
  rw [hline, trim_append_cons f.header_ne_nil (by decide)]
  simp [oneLine]

/-- The words of the header and the brace behind the parameters declare the function. -/
theorem declares_name : declares (words f.header) f.name true = true := by
  have hne : f.name ≠ [] := by
    intro hnil
    have hname := f.isQualifiedName_name
    rw [hnil] at hname
    cases hname
  have haccepted : isAcceptableName f.name = true := by
    simp [isAcceptableName, hne, nameLimit, f.length_name]
  have hfirst : (words f.header).head?.any leadingKeywords.contains = false := by
    simpa [Option.any_eq_false] using f.first_word
  simp [declares, f.name_not_control, hfirst, f.isQualifiedName_name, haccepted]

theorem bracedName?_line : bracedName? (trim f.line) = some f.name := by
  have hheader : ∀ c ∈ trimStart f.header, c ≠ '(' ∧ c ≠ '=' ∧ c ≠ '{' ∧ c ≠ '}' :=
    fun c hc => f.header_plain c (mem_trimStart hc)
  have hfront : ∀ c ∈ (trimStart f.header).head?, c ≠ '}' ∧ isBlank c = false := by
    intro c hc
    have hblank := List.head?_dropWhile_not isBlank f.header
    rw [trimStart] at hc
    rw [Option.mem_def.1 hc] at hblank
    exact ⟨(hheader c (List.mem_of_mem_head? hc)).2.2.2, by simpa using hblank⟩
  have harrow : occursIn "=>".toList (trim f.line) = false := by
    obtain ⟨pad, pad', -, -, hs⟩ := exists_margins f.line
    rw [Bool.eq_false_iff]
    intro hpart
    have hwhole := occursIn_append pad pad' hpart
    rw [← hs, line, f.no_arrow] at hwhole
    cases hwhole
  rw [f.trim_line] at harrow ⊢
  refine bracedName?_call f.header_ne_nil hfront (fun h => (hheader _ h).1 rfl)
    (fun h => (hheader _ h).2.1 rfl) harrow (by simp) ?_ ?_
  · rw [words_trimStart, f.last_word]
  · rw [words_trimStart, f.declares_name]

theorem braceBalance_line : braceBalance f.line = 0 := by
  have hheader : f.header.count '{' = 0 ∧ f.header.count '}' = 0 :=
    ⟨List.count_eq_zero.2 fun h => (f.header_plain _ h).2.2.1 rfl,
      List.count_eq_zero.2 fun h => (f.header_plain _ h).2.2.2 rfl⟩
  have hparams : f.params.count '{' = 0 ∧ f.params.count '}' = 0 :=
    ⟨List.count_eq_zero.2 fun h => (f.params_plain _ h).1 rfl,
      List.count_eq_zero.2 fun h => (f.params_plain _ h).2 rfl⟩
  have htail : f.tail.count '{' = 0 ∧ f.tail.count '}' = 0 :=
    ⟨List.count_eq_zero.2 fun h => by simpa using f.tail_plain _ h,
      List.count_eq_zero.2 fun h => by simpa using f.tail_plain _ h⟩
  have hbody := f.body_balance
  simp only [braceBalance, line, oneLine, List.count_append, List.count_cons, hheader, hparams,
    htail]
  simp
  omega

theorem oneLineSpan_line :
    oneLineSpan f.name (trim f.line) 1 =
      if trim f.body ⊆ [' ', ';'] then Span.onLines f.name 2 1
      else { Span.onLines f.name 1 1 with inlineBody := some (trim f.body) } := by
  have hopen : '(' ∉ trimStart f.header := fun h => (f.header_plain _ (mem_trimStart h)).1 rfl
  have hequals : '=' ∉ trimStart f.header := fun h => (f.header_plain _ (mem_trimStart h)).2.1 rfl
  have harrow : occursIn "=>".toList (trimStart f.header) = false :=
    occursIn_eq_false_of_not_mem (c := '=') (by decide) hequals
  have hbody : unwrapBody (afterParameters (trim f.line)) = trim f.body := by
    rw [f.trim_line, oneLine, afterParameters_group hopen harrow f.params_balanced]
    exact unwrapBody_braces f.body fun c hc => f.tail_plain c (mem_trimEnd hc)
  have hempty : (trim f.body).all (" ;".toList.contains ·) = true ↔ trim f.body ⊆ [' ', ';'] := by
    simp [List.subset_def]
  simp only [oneLineSpan, hbody, hempty]

end OneLineFunction

theorem Family.nameIn?_of_bracedName? {family : Family} (h : family ≠ .indentation)
    {line name : Text} (hname : bracedName? line = some name) :
    family.nameIn? line = some name := by
  cases family with
  | indentation => exact absurd rfl h
  | brace | generic => exact hname
  | script => rw [nameIn?, scriptName?, hname, Option.some_or]

/-- In a family with braces, a text that is one such line has one function, whose body is what
stands between the braces.  When that is nothing but spaces and semicolons, there is no body. -/
theorem extract_oneLine (f : OneLineFunction) (tag : Text)
    (hfamily : familyOfTag tag ≠ .indentation) :
    extract f.line tag =
      ⟨[ if trim f.body ⊆ [' ', ';'] then Span.onLines f.name 2 1
         else { Span.onLines f.name 1 1 with inlineBody := some (trim f.body) } ], .functions⟩ := by
  have hne : f.line ≠ [] := by simp [OneLineFunction.line, oneLine]
  have hlines : splitLines f.line = [f.line] := splitLines_singleLine hne f.no_lineEnd
  have hname := Family.nameIn?_of_bracedName? hfamily f.bracedName?_line
  have hclosed : braceBalance f.line ≤ 0 := Int.le_of_eq f.braceBalance_line
  have hspans : functionSpans (familyOfTag tag) [f.line] =
      [oneLineSpan f.name (trim f.line) 1] := by
    rw [functionSpans_eq, Family.spanAt_eq_bracedSpanAt hfamily]
    simp [spansFrom, bracedSpanAt, hname, hclosed]
  have hshort : ¬ lineLimit < [f.line].length := by simp [lineLimit]
  rw [← f.oneLineSpan_line, extract, extractLines, hlines, if_neg hshort, hspans]

/-- An indented line with parentheses among the parameters, and braces in the body that are not even
in order. -/
theorem extract_oneLine_unordered :
    let line := "\tstatic int f(int (*g)(int), int x) \x7b g(x); \x7d h(); \x7b \x7d ;, ".toList
    ∃ f : OneLineFunction, f.line = line ∧ familyOfTag "c".toList ≠ .indentation
      ∧ extract line "c".toList =
        ⟨[{ Span.onLines "f".toList 1 1 with
            inlineBody := some "g(x); \x7d h(); \x7b".toList }], .functions⟩ := by
  intro line
  let f : OneLineFunction :=
    { header := "\tstatic int f".toList
      name := "f".toList
      params := "int (*g)(int), int x".toList
      body := " g(x); \x7d h(); \x7b ".toList
      tail := " ;, ".toList
      header_plain := List.all_iff_forall_prop.1 (by decide)
      first_word := by decide
      last_word := by decide
      isQualifiedName_name := by decide
      length_name := by decide
      name_not_control := by decide
      params_balanced := by decide
      params_plain := List.all_iff_forall_prop.1 (by decide)
      body_balance := by decide
      tail_plain := List.all_iff_forall_prop.1 (by decide)
      no_arrow := by decide
      no_lineEnd := List.all_iff_forall_prop.1 (by decide) }
  have hfamily : familyOfTag "c".toList ≠ .indentation := by decide
  have hbody : trim f.body = "g(x); \x7d h(); \x7b".toList := by decide
  have htext : ¬ "g(x); \x7d h(); \x7b".toList ⊆ [' ', ';'] := by decide
  refine ⟨f, by decide, hfamily, ?_⟩
  have hextract := extract_oneLine f "c".toList hfamily
  rwa [hbody, if_neg htext] at hextract

end GrowthEstimate
