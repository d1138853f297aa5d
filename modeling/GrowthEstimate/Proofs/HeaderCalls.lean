import GrowthEstimate.Proofs.LoopCount
import GrowthEstimate.Proofs.ParameterLists
import GrowthEstimate.Proofs.Placeholder
import GrowthEstimate.Proofs.ScriptGrammar

/-!
# Calls behind a header

A function on one line is counted from what stands behind its parameters, without the arrow, the
braces and the blanks around it.  None of these can be a part of a call, and the name in the header
stands in front of the parameters, so a header is never counted as a call of its own function.

* `wraps_unwrapBody`, `countOccurrences_unwrapBody`: what is taken off a body holds no part of a
  call;
* `exists_last_word`: where the last word of a text stands;
* `exists_header_split`: where the name of a header stands, and what stands between it and the body;
* `selfCalls_behind_header`: which calls of a one-line function are counted.
-/

namespace GrowthEstimate

open Text Header Body

/-! ## What is taken off a body -/

/-- The characters that may be taken off around a body. -/
def isWrapping (c : Char) : Bool := isBlank c || "=>\x7b\x7d;,".toList.contains c

/-- Whether the text is the body with characters around it that may be taken off. -/
def Wraps (s body : Text) : Prop :=
  ∃ pad pad', (∀ c ∈ pad, isWrapping c = true) ∧ (∀ c ∈ pad', isWrapping c = true)
    ∧ s = pad ++ body ++ pad'

namespace Wraps

variable {s t u : Text}

theorem refl (s : Text) : Wraps s s := ⟨[], [], by simp, by simp, by simp⟩

theorem trans (h : Wraps s t) (h' : Wraps t u) : Wraps s u := by
  obtain ⟨outer, outer', houter, houter', rfl⟩ := h
  obtain ⟨inner, inner', hinner, hinner', rfl⟩ := h'
  refine ⟨outer ++ inner, inner' ++ outer', List.forall_mem_append.2 ⟨houter, hinner⟩,
    List.forall_mem_append.2 ⟨hinner', houter'⟩, ?_⟩
  simp only [List.append_assoc]

theorem trim (s : Text) : Wraps s (trim s) := by
  obtain ⟨pad, pad', hpad, hpad', hs⟩ := exists_margins s
  exact ⟨pad, pad', fun c hc => by simp [isWrapping, hpad c hc],
    fun c hc => by simp [isWrapping, hpad' c hc], hs⟩

theorem of_after? {token : Text} (htoken : token.all isWrapping = true)
    (h : after? token s = some t) : Wraps s t := by
  rw [after?_eq_some_iff] at h
  exact ⟨token, [], List.all_eq_true.1 htoken, by simp, by simp [h]⟩

/-- The brace that opens a body is taken off, and the one that closes it with what stands behind
that. -/
theorem unbraced (s : Text) : Wraps s (unbraced s) := by
  rw [GrowthEstimate.unbraced]
  split
  · exact refl s
  · next inside hinside =>
    have hopening : Wraps s inside := of_after? (by decide) hinside
    simp only
    split
    · next hends =>
      obtain ⟨tail, htail, hclosing⟩ := exists_dropped_end (" ;,".toList.contains ·) inside
      obtain ⟨body, hbody⟩ := List.isSuffixOf_iff_suffix.1 hends
      have hdrop : (body ++ "\x7d".toList).dropLast = body := List.dropLast_concat
      have hstops : ∀ c ∈ " ;,".toList, isWrapping c = true := List.all_eq_true.1 (by decide)
      rw [← hbody] at hclosing ⊢
      rw [hdrop]
      refine hopening.trans ⟨[], "\x7d".toList ++ tail, by simp, ?_, by simpa using hclosing⟩
      refine List.forall_mem_append.2 ⟨List.all_eq_true.1 (by decide), fun c hc => ?_⟩
      exact hstops c (List.contains_iff_mem.1 (htail c hc))
    · exact hopening

end Wraps

theorem wraps_unwrapBody (s : Text) : Wraps s (unwrapBody s) := by
  have harrow : Wraps (trim s) (((after? "=>".toList (trim s)).map trim).getD (trim s)) := by
    cases hafter : after? "=>".toList (trim s) with
    | none => exact Wraps.refl _
    | some rest => exact (Wraps.of_after? (by decide) hafter).trans (Wraps.trim rest)
  exact (((Wraps.trim s).trans harrow).trans (Wraps.unbraced _)).trans (Wraps.trim _)

/-! ## The characters of a name -/

/-- No character of an identifier is taken off, and none is a parenthesis. -/
theorem not_isWrapping_of_isIdentifierChar {c : Char} (h : isIdentifierChar c = true) :
    isWrapping c = false ∧ c ≠ '(' := by
  have hmarks : ∀ d ∈ "=>\x7b\x7d;,(".toList, isIdentifierChar d = false :=
    List.all_iff_forall_prop.1 (by decide)
  have hother : c ∉ "=>\x7b\x7d;,(".toList := fun hc => by
    rw [hmarks c hc] at h
    cases h
  refine ⟨?_, ?_⟩
  · rw [isWrapping, isBlank_of_isIdentifierChar h, Bool.false_or, Bool.eq_false_iff]
    exact fun hc => hother (List.mem_append_left ['('] (List.contains_iff_mem.1 hc))
  · rintro rfl
    exact hother (by decide)

/-- The characters of a qualified name are those of identifiers, tildes and colons. -/
theorem mem_of_areQualified {pieces : List Text} (h : areQualified pieces = true) {c : Char}
    (hc : c ∈ [':'].intercalate pieces) : isIdentifierChar c = true ∨ c = '~' ∨ c = ':' := by
  have hpart : ∀ part : Text, isNamePart part = true → ∀ d ∈ part,
      isIdentifierChar d = true ∨ d = '~' := by
    intro part hpart d hd
    cases part with
    | nil => cases hd
    | cons first part =>
      simp only [isNamePart, Bool.and_eq_true, Bool.or_eq_true, beq_iff_eq, List.all_eq_true]
        at hpart
      rcases List.mem_cons.1 hd with rfl | hd
      · exact hpart.1.imp_left isIdentifierChar_of_isIdentifierStart
      · exact hpart.2 d hd
  fun_induction areQualified pieces with
  | case1 part =>
    have hmem : c ∈ part := by simpa using hc
    exact (hpart part h c hmem).imp_right Or.inl
  | case2 part rest ih =>
    rw [Bool.and_eq_true] at h
    cases rest with
    | nil => cases h.2
    | cons next rest =>
      rw [List.intercalate_cons_cons, List.intercalate_cons_cons] at hc
      simp only [List.mem_append, List.not_mem_nil, false_or, List.mem_singleton] at hc
      rcases hc with (hfirst | hcolon) | hcolon | hrest
      · exact (hpart part h.1 c hfirst).imp_right Or.inl
      · exact Or.inr (Or.inr hcolon)
      · exact Or.inr (Or.inr hcolon)
      · exact ih h.2 hrest
  | case3 => cases h

theorem mem_of_isQualifiedName {name : Text} (h : isQualifiedName name = true) {c : Char}
    (hc : c ∈ name) : isIdentifierChar c = true ∨ c = '~' ∨ c = ':' := by
  apply mem_of_areQualified h
  rwa [List.intercalate_splitOn]

theorem not_isWrapping_of_bracedName? {line name : Text} (h : bracedName? line = some name)
    {c : Char} (hc : c ∈ name) : isWrapping c = false ∧ c ≠ '(' := by
  obtain ⟨-, -, -, -, -, hdeclares⟩ := bracedName?_eq_some_iff.1 h
  simp only [declares, Bool.and_eq_true] at hdeclares
  rcases mem_of_isQualifiedName hdeclares.1.2 hc with hidentifier | rfl | rfl
  · exact not_isWrapping_of_isIdentifierChar hidentifier
  · decide
  · decide

/-! ## Where a name stands in its header -/

/-- A word behind nothing or behind a blank is a word of its own. -/
theorem words_append_word {front word : Text} (hne : word ≠ [])
    (hword : ∀ c ∈ word, isBlank c = false) (hfront : ∀ c ∈ front.getLast?, isBlank c = true) :
    words (front ++ word) = words front ++ [word] := by
  have hone : words word = [word] := words_of_plain hne hword
  rcases List.eq_nil_or_concat front with rfl | ⟨front, c, rfl⟩
  · exact hone
  · rw [List.concat_eq_append] at hfront ⊢
    have hc : isBlank c = true := hfront c List.getLast?_concat
    have hpad : ∀ d ∈ [c], isBlank d = true := by simpa using hc
    rw [List.append_assoc, List.singleton_append, words_append_blank hc, hone,
      words_append_pad hpad]

/-- The last word of a text, with nothing but blanks behind it. -/
theorem exists_last_word {s word : Text} (h : (words s).getLast? = some word) :
    ∃ front gap, s = front ++ word ++ gap ∧ ∀ c ∈ gap, isBlank c = true := by
  obtain ⟨gap, hgap, hs⟩ := exists_dropped_end isBlank s
  obtain ⟨last, hlast, hbefore⟩ := exists_dropped_end (!isBlank ·) (dropEndWhile isBlank s)
  have hwords : words s = words (dropEndWhile isBlank s) := by
    conv_lhs => rw [hs, words_append_pad hgap]
  by_cases hnil : last = []
  · -- then the text in front of the gap ends both in a blank and in none, so it is empty
    rw [hnil, List.append_nil] at hbefore
    cases hend : (dropEndWhile isBlank s).getLast? with
    | none =>
      rw [hwords, List.getLast?_eq_none_iff.1 hend] at h
      cases h
    | some c =>
      have hblank : isBlank c = false := getLast?_dropEndWhile hend
      rw [hbefore] at hend
      have hnot : (!isBlank c) = false := getLast?_dropEndWhile hend
      rw [hblank] at hnot
      cases hnot
  · have hfront : ∀ c ∈ (dropEndWhile (!isBlank ·) (dropEndWhile isBlank s)).getLast?,
        isBlank c = true := fun c hc => by simpa using getLast?_dropEndWhile hc
    have hsplit := words_append_word hnil (fun c hc => by simpa using hlast c hc) hfront
    rw [hwords, hbefore, hsplit, List.getLast?_concat, Option.some.injEq] at h
    rw [← h]
    refine ⟨dropEndWhile (!isBlank ·) (dropEndWhile isBlank s), gap, ?_, hgap⟩
    rw [← hbefore]
    exact hs

/-- Where a name stands in its header: as the last word in front of the first parenthesis, as what
an arrow function is assigned to, or as a member of an object. -/
inductive NameAt (header name front rest : Text) : Prop
  | called (hbraced : bracedName? header = some name) (hfront : ∀ c ∈ front, c ≠ '(' ∧ c ≠ '=')
      (hrest : rest ∈ blankRun * word "(" * ⊤)
  | assigned (hbraced : bracedName? header = none) (hfront : front ∈ maybe declarator)
      (hrest : rest ∈ assignmentRest)
  | member (hbraced : bracedName? header = none) (hfront : front = []) (hrest : rest ∈ memberRest)

namespace NameAt

variable {header name front rest : Text}

theorem plain_front (h : NameAt header name front rest) : ∀ c ∈ front, c ≠ '(' ∧ c ≠ '=' := by
  have hplain : (∀ c ∈ front, isPlain c = true) → ∀ c ∈ front, c ≠ '(' ∧ c ≠ '=' := by
    intro hplain c hc
    constructor <;> rintro rfl <;> cases hplain _ hc
  cases h with
  | called hbraced hfront hrest => exact hfront
  | assigned hbraced hfront hrest => exact hplain (holdsOnly_declarator.maybe front hfront)
  | member hbraced hfront hrest => simp [hfront]

/-- What stands behind a name does not end an arrow. -/
theorem head?_rest (h : NameAt header name front rest) : rest.head?.any (· != '>') = true := by
  have hother : ∀ p : Char → Bool, p '>' = false → ∀ c, p c = true → (c != '>') = true := by
    intro p hp c hc
    rw [bne_iff_ne]
    rintro rfl
    rw [hp] at hc
    cases hc
  cases h with
  | called hbraced hfront hrest =>
    rw [mul_assoc] at hrest
    exact ((startsIn_word rfl).mul ⊤).blankRun_mul (hother isBlank rfl) rest hrest
  | assigned hbraced hfront hrest =>
    rw [assignmentRest_eq] at hrest
    exact (startsIn_assignmentMark.mono (hother isMark rfl)).blankRun_mul (hother isBlank rfl) rest
      hrest
  | member hbraced hfront hrest =>
    rw [memberRest_eq] at hrest
    exact (startsIn_memberMark.mono (hother isMark rfl)).blankRun_mul (hother isBlank rfl) rest
      hrest

end NameAt

theorem exists_nameAt_of_bracedName? {line name : Text} (h : bracedName? line = some name) :
    ∃ front rest, line = front ++ name ++ rest ∧ NameAt line name front rest := by
  obtain ⟨hopen, -, -, hequals, hlast, -⟩ := bracedName?_eq_some_iff.1 h
  obtain ⟨before, params, hsplit, hbefore⟩ := List.eq_append_cons_of_mem hopen
  have hupTo : upTo '(' (behindClosing line) = before := by
    rw [hsplit, upTo_append hbefore, upTo_cons_self, List.append_nil]
  rw [hupTo] at hequals hlast
  obtain ⟨front, gap, rfl, hgap⟩ := exists_last_word hlast
  let closing := line.takeWhile (· == '}') ++ (line.dropWhile (· == '}')).takeWhile isBlank
  have hline : line = closing ++ behindClosing line := by
    rw [List.append_assoc, behindClosing, trimStart, List.takeWhile_append_dropWhile,
      List.takeWhile_append_dropWhile]
  refine ⟨closing ++ front, gap ++ '(' :: params, ?_, .called h ?_ ?_⟩
  · rw [hline, hsplit]
    simp only [List.append_assoc]
  · intro c hc
    rcases List.mem_append.1 hc with hc | hc
    · rcases List.mem_append.1 hc with hc | hc
      · have hbrace := List.all_eq_true.1 List.all_takeWhile c hc
        rw [beq_iff_eq] at hbrace
        rw [hbrace]
        decide
      · have hblank := List.all_eq_true.1 List.all_takeWhile c hc
        constructor <;> rintro rfl <;> cases hblank
    · refine ⟨?_, ?_⟩
      · rintro rfl
        exact hbefore (by simp [hc])
      · rintro rfl
        exact hequals (by simp [hc])
  · rw [mul_assoc]
    exact Language.mem_mul.2 ⟨gap, hgap, _, mem_word_mul.2 ⟨params, rfl, trivial⟩, rfl⟩

theorem exists_nameAt_of_scriptHeader {line name : Text} (hbraced : bracedName? line = none)
    (h : line ∈ scriptHeader name) :
    name ∈ identifier
      ∧ ∃ front rest, line = front ++ name ++ rest ∧ NameAt line name front rest := by
  rcases h with hassignment | hmember
  · obtain ⟨declared, hdeclared, rest, hrest, rfl⟩ := Language.mem_mul.1 hassignment
    obtain ⟨front, hfront, named, ⟨rfl, hname⟩, rfl⟩ := Language.mem_mul.1 hdeclared
    exact ⟨hname, front, rest, rfl, .assigned hbraced hfront hrest⟩
  · obtain ⟨named, ⟨rfl, hname⟩, rest, hrest, rfl⟩ := Language.mem_mul.1 hmember
    exact ⟨hname, [], rest, rfl, .member hbraced rfl hrest⟩

/-- The name of a braced or a script function stands in its header, and holds nothing that is taken
off a body. -/
theorem exists_nameAt {family : Family} (hfamily : family ≠ .indentation) {line name : Text}
    (h : family.nameIn? line = some name) :
    (∀ c ∈ name, isWrapping c = false ∧ c ≠ '(')
      ∧ ∃ front rest, line = front ++ name ++ rest ∧ NameAt line name front rest := by
  have hcases : bracedName? line = some name
      ∨ bracedName? line = none ∧ scriptName? line = some name := by
    cases family with
    | indentation => exact absurd rfl hfamily
    | brace | generic => exact Or.inl h
    | script =>
      cases hbraced : bracedName? line with
      | none => exact Or.inr ⟨rfl, h⟩
      | some other =>
        refine Or.inl ?_
        rw [← h]
        simp [Family.nameIn?, scriptName?, hbraced]
  rcases hcases with hbraced | ⟨hnone, hscript⟩
  · exact ⟨fun c hc => not_isWrapping_of_bracedName? hbraced hc,
      exists_nameAt_of_bracedName? hbraced⟩
  · obtain ⟨hname, hplace⟩ :=
      exists_nameAt_of_scriptHeader hnone ((scriptName?_eq_some_iff hnone).1 hscript).2
    have hidentifier := isIdentifierChar_of_mem_identifier hname
    exact ⟨fun c hc => not_isWrapping_of_isIdentifierChar (hidentifier c hc), hplace⟩

/-! ## What stands behind the name -/

/-- At least one character stands in front of what follows the parameters. -/
theorem exists_before_afterParameters {s : Text} (hne : s ≠ []) :
    ∃ skipped, skipped ≠ [] ∧ s = skipped ++ afterParameters s := by
  obtain ⟨c, s, rfl⟩ := List.exists_cons_of_ne_nil hne
  have hsuffix : afterParameters (c :: s) <:+ s := by
    rw [afterParameters]
    split
    · exact afterClosing_suffix 1 s
    · split
      · exact List.tail_suffix s
      · exact afterParameters_suffix s
  obtain ⟨taken, htaken⟩ := hsuffix
  exact ⟨c :: taken, List.cons_ne_nil c taken, by rw [List.cons_append, htaken]⟩

/-- The parameters stand behind the name. -/
theorem NameAt.afterParameters_eq {header name front rest : Text}
    (h : NameAt header name front rest) (hheader : header = front ++ name ++ rest)
    (hname : ∀ c ∈ name, isWrapping c = false ∧ c ≠ '(') :
    afterParameters header = afterParameters rest := by
  have hopen : '(' ∉ front ++ name := by
    rw [List.mem_append, not_or]
    exact ⟨fun hc => (h.plain_front _ hc).1 rfl, fun hc => (hname _ hc).2 rfl⟩
  have hequals : '=' ∉ front ++ name := by
    rw [List.mem_append, not_or]
    refine ⟨fun hc => (h.plain_front _ hc).2 rfl, fun hc => ?_⟩
    have hnot := (hname _ hc).1
    cases hnot
  have harrow : occursIn "=>".toList (front ++ name) = false :=
    occursIn_eq_false_of_not_mem List.mem_cons_self hequals
  have hrest : rest.head? ≠ some '>' := fun hhead => by
    have hnot := h.head?_rest
    rw [hhead] at hnot
    cases hnot
  rw [hheader, afterParameters_skip hopen harrow hrest]

/-- The parenthesis right behind the name is no part of what follows the parameters. -/
theorem NameAt.exists_skipped {header name front rest : Text} (h : NameAt header name front rest) :
    ∃ skipped, skipped ≠ [] ∧ rest = skipped ++ afterParameters rest
      ∧ (bracedName? header = some name → skipped ∈ blankRun * word "(" * ⊤) := by
  have hne : rest ≠ [] := by
    rintro rfl
    cases h.head?_rest
  cases h with
  | called hbraced hfront hrest =>
    rw [mul_assoc] at hrest
    obtain ⟨gap, hgap, call, hcall, rfl⟩ := Language.mem_mul.1 hrest
    obtain ⟨params, hparams, -⟩ := mem_word_mul.1 hcall
    obtain rfl := after?_eq_some_iff.1 hparams
    have hafter : afterParameters (gap ++ '(' :: params) = afterClosing 1 params := by
      have hopen : '(' ∉ gap := fun hc => by cases hgap _ hc
      have hequals : '=' ∉ gap := fun hc => by cases hgap _ hc
      exact afterParameters_append hopen
        (occursIn_eq_false_of_not_mem List.mem_cons_self hequals) params
    obtain ⟨taken, htaken⟩ := afterClosing_suffix 1 params
    refine ⟨gap ++ '(' :: taken, by simp, ?_, fun _ => ?_⟩
    · have hsplit : gap ++ '(' :: params = gap ++ '(' :: taken ++ afterClosing 1 params := by
        rw [List.append_assoc, List.cons_append, htaken]
      exact hsplit.trans (congrArg _ hafter.symm)
    · rw [mul_assoc]
      exact Language.mem_mul.2 ⟨gap, hgap, _, mem_word_mul.2 ⟨taken, rfl, trivial⟩, rfl⟩
  | assigned hbraced hfront hrest | member hbraced hfront hrest =>
    obtain ⟨skipped, hskipped, hsplit⟩ := exists_before_afterParameters hne
    refine ⟨skipped, hskipped, hsplit, fun hsome => ?_⟩
    rw [hbraced] at hsome
    cases hsome

/-- The name of a header, and what stands between it and the text behind the parameters. -/
theorem exists_header_split {family : Family} (hfamily : family ≠ .indentation) {line name : Text}
    (h : family.nameIn? line = some name) :
    ∃ front skipped, line = front ++ name ++ skipped ++ afterParameters line
      ∧ NameAt line name front (skipped ++ afterParameters line) ∧ skipped ≠ []
      ∧ (bracedName? line = some name → skipped ∈ blankRun * word "(" * ⊤) := by
  obtain ⟨hname, front, rest, hline, hplace⟩ := exists_nameAt hfamily h
  obtain ⟨skipped, hne, hrest, hparen⟩ := hplace.exists_skipped
  rw [← hplace.afterParameters_eq hline hname] at hrest
  refine ⟨front, skipped, ?_, hrest ▸ hplace, hne, hparen⟩
  rw [List.append_assoc, ← hrest]
  exact hline

/-! ## Counting -/

theorem countOccurrences_unwrapBody {name : Text} (h : ∀ c ∈ name, isWrapping c = false)
    (s : Text) :
    countOccurrences (callOf name) (unwrapBody s) = countOccurrences (callOf name) s := by
  have hcall : ∀ c ∈ callOf name, isWrapping c = false :=
    List.forall_mem_append.2 ⟨h, List.forall_mem_singleton.2 rfl⟩
  have hnot : ∀ pad : Text, (∀ c ∈ pad, isWrapping c = true) → ∀ c ∈ callOf name, c ∉ pad := by
    intro pad hpad c hc hmem
    have hwrapping := hpad c hmem
    rw [hcall c hc] at hwrapping
    cases hwrapping
  obtain ⟨pad, pad', hpad, hpad', hs⟩ := wraps_unwrapBody s
  conv_rhs => rw [hs]
  refine (countOccurrences_around (by simp [callOf]) ?_ ?_ _).symm
  · exact fun c hc => hnot pad hpad c (List.mem_of_head? hc)
  · exact fun c hc => hnot pad' hpad' c (List.mem_of_getLast? hc)

theorem oneLineSpan_inlineBody {name line body : Text} {number : Nat}
    (h : (oneLineSpan name line number).inlineBody = some body) :
    oneLineSpan name line number =
        { Span.onLines name number number with inlineBody := some body }
      ∧ body = unwrapBody (afterParameters line) ∧ body ≠ [] := by
  unfold oneLineSpan at h ⊢
  simp only at h ⊢
  split at h
  · cases h
  · next htext =>
    rw [if_neg htext]
    cases h
    refine ⟨rfl, rfl, fun hempty => htext ?_⟩
    rw [hempty]
    rfl

/-- A function that carries its body has the span of the line of its header. -/
theorem exists_oneLineSpan {family : Family} {lines : List Text} {span : Span} {body : Text}
    (h : span ∈ functionSpans family lines) (hbody : span.inlineBody = some body) :
    family ≠ .indentation ∧ ∃ (number : Nat) (line name : Text), lines[number]? = some line
      ∧ family.nameIn? (trim line) = some name
      ∧ span = oneLineSpan name (trim line) (number + 1) := by
  have hfamily : family ≠ .indentation := by
    rintro rfl
    rw [inlineBody_of_indented h] at hbody
    cases hbody
  rw [functionSpans_eq, Family.spanAt_eq_bracedSpanAt hfamily] at h
  obtain ⟨before, line, rest, rfl, hspan⟩ := mem_spansFrom_iff.1 h
  obtain ⟨name, hname, rfl⟩ := Option.map_eq_some_iff.1 hspan
  by_cases hclosed : braceBalance line ≤ 0
  · rw [if_pos hclosed, Nat.zero_add]
    exact ⟨hfamily, before.length, line, name, getElem?_header, hname, rfl⟩
  · rw [if_neg hclosed] at hbody
    cases hbody

/-- A function that carries its body is written on the line of its header. -/
theorem oneLine_of_inlineBody {family : Family} {lines : List Text} {span : Span} {body : Text}
    (h : span ∈ functionSpans family lines) (hbody : span.inlineBody = some body) :
    family ≠ .indentation ∧ ∃ (number : Nat) (line : Text), lines[number]? = some line
      ∧ family.nameIn? (trim line) = some span.name
      ∧ span.first = number + 1 ∧ span.last = number + 1
      ∧ body = unwrapBody (afterParameters (trim line)) := by
  obtain ⟨hfamily, number, line, name, hline, hname, rfl⟩ := exists_oneLineSpan h hbody
  obtain ⟨hspan, hunwrapped, -⟩ := oneLineSpan_inlineBody hbody
  rw [hspan]
  exact ⟨hfamily, number, line, hline, hname, rfl, rfl, hunwrapped⟩

/-- A call that stands nowhere in a header but at the name itself does not stand behind the
parameters. -/
theorem countOccurrences_eq_zero_of_header {header name front skipped behind : Text}
    (hheader : header = front ++ name ++ skipped ++ behind) (hne : skipped ≠ [])
    (honly : ∀ u v, header = u ++ callOf name ++ v → u = front) :
    countOccurrences (callOf name) behind = 0 := by
  have hcall : callOf name ≠ [] := by simp [callOf]
  by_contra hcount
  obtain ⟨u, v, hbehind⟩ :=
    occursIn_iff_part.1 ((occursIn_iff_count_pos hcall).2 (Nat.pos_of_ne_zero hcount))
  have hplace : front ++ name ++ skipped ++ u = front := by
    refine honly _ v ?_
    rw [hheader, ← hbehind]
    simp only [List.append_assoc]
  have hlength := congrArg List.length hplace
  have hpos := List.length_pos_of_ne_nil hne
  simp only [List.length_append] at hlength
  omega

/-- A function on one line is counted from what stands behind the parameters of its header: what is
taken off around the body holds no part of a call, and the name in the header, with the parenthesis
behind it, stands in front.  So a function with no call of its name but at the name in its header
has no self-calls, and no note says that it recurs. -/
theorem selfCalls_behind_header (family : Family) (lines : List Text) (span : Span) (body : Text)
    (hspan : span ∈ functionSpans family lines) (hbody : span.inlineBody = some body) :
    ∃ (number : Nat) (line : Text), lines[number]? = some line ∧
      let header := trim line
      let call := callOf span.name
      family.nameIn? header = some span.name ∧ span.first = number + 1 ∧ span.last = number + 1
        ∧ body = unwrapBody (afterParameters header)
        ∧ countOccurrences call body = countOccurrences call (afterParameters header)
        ∧ ∃ front skipped, header = front ++ span.name ++ skipped ++ afterParameters header
          ∧ NameAt header span.name front (skipped ++ afterParameters header) ∧ skipped ≠ []
          ∧ (bracedName? header = some span.name → skipped ∈ blankRun * word "(" * ⊤)
          ∧ ((∀ u v, header = u ++ call ++ v → u = front) →
              countOccurrences call body = 0
                ∧ ∀ tag findings,
                  (Session.look tag lines ⟨span, findings⟩).2.findings.selfCalls = 0
                    ∧ ¬ ∃ note : Note, note.text ∈ (analyzeSpan tag lines span).rationale
                      ∧ note.isRecursion = true) := by
  obtain ⟨hfamily, number, line, hline, hname, hfirst, hlast, hunwrapped⟩ :=
    oneLine_of_inlineBody hspan hbody
  obtain ⟨hchars, -⟩ := exists_nameAt hfamily hname
  have hcount : countOccurrences (callOf span.name) body =
      countOccurrences (callOf span.name) (afterParameters (trim line)) := by
    rw [hunwrapped, countOccurrences_unwrapBody fun c hc => (hchars c hc).1]
  obtain ⟨front, skipped, hheader, hplace, hne, hparen⟩ := exists_header_split hfamily hname
  refine ⟨number, line, hline, hname, hfirst, hlast, hunwrapped, hcount, front, skipped, hheader,
    hplace, hne, hparen, fun honly => ?_⟩
  have hzero : countOccurrences (callOf span.name) body = 0 :=
    hcount.trans (countOccurrences_eq_zero_of_header hheader hne honly)
  have hcalls : countSelfCalls span.name body = 0 := by simp [countSelfCalls, hzero]
  refine ⟨hzero, fun tag findings => ⟨?_, ?_⟩⟩
  · have hselfCalls : ((countSelfCalls span.name body : Nat) : Int) = 0 := by rw [hcalls]; rfl
    simp only [Session.look, Span.body?_inline hbody]
    exact hselfCalls
  · rw [exists_recursion_of_body (Span.body?_inline hbody lines), hcalls]
    exact Nat.lt_irrefl 0

/-- A qualified name with no call but in the header, on an indented line with two other calls. -/
theorem selfCalls_behind_header_qualified :
    let lines := ["\tA::f(x) \x7b f(g(x)); \x7d ;".toList]
    let body := "f(g(x));".toList
    let span : Span := ⟨"A::f".toList, 1, 1, some body⟩
    span ∈ functionSpans .brace lines ∧ span.inlineBody = some body
      ∧ countOccurrences "A::f(".toList body = 0
      ∧ ∀ tag findings, (Session.look tag lines ⟨span, findings⟩).2.findings.selfCalls = 0
        ∧ ¬ ∃ note : Note, note.text ∈ (analyzeSpan tag lines span).rationale
          ∧ note.isRecursion = true := by
  intro lines body span
  have hspan : span ∈ functionSpans .brace lines := by decide +kernel
  obtain ⟨number, line, hline, -, -, -, -, -, front, skipped, hheader, hplace, -, hparen, hzero⟩ :=
    selfCalls_behind_header .brace lines span body hspan rfl
  cases number with
  | succ number => cases hline
  | zero =>
    cases hline
    have htrim : trim "\tA::f(x) \x7b f(g(x)); \x7d ;".toList =
        "A::f(x) \x7b f(g(x)); \x7d ;".toList := by decide +kernel
    rw [htrim] at hheader hplace hparen hzero
    obtain ⟨call, hcall, rest, -, rfl⟩ := Language.mem_mul.1 (hparen (by decide +kernel))
    obtain ⟨gap, hgap, paren, rfl, rfl⟩ := Language.mem_mul.1 hcall
    obtain ⟨behind, hsplit⟩ : ∃ behind, "A::f(x) \x7b f(g(x)); \x7d ;".toList =
        front ++ "A::f".toList ++ gap ++ '(' :: behind :=
      ⟨_, hheader.trans (by simp only [List.append_assoc]; rfl)⟩
    have hfront : front = [] := by
      have hopen : '(' ∉ front ++ "A::f".toList ++ gap := by
        simp only [List.mem_append, not_or]
        exact ⟨⟨fun h => (hplace.plain_front _ h).1 rfl, by decide⟩, fun h => by cases hgap _ h⟩
      have hname : upTo '(' "A::f(x) \x7b f(g(x)); \x7d ;".toList = "A::f".toList := by decide
      rw [hsplit, upTo_append hopen, upTo_cons_self, List.append_nil] at hname
      have hlength := congrArg List.length hname
      simp only [List.length_append] at hlength
      exact List.eq_nil_of_length_eq_zero (by omega)
    have hplaces : ∀ i < 22, "A::f(".toList <+: "A::f(x) \x7b f(g(x)); \x7d ;".toList.drop i →
        i = 0 := by decide +kernel
    refine ⟨hspan, rfl, hzero fun u v hcall => ?_⟩
    rw [hfront, ← List.length_eq_zero_iff]
    refine hplaces u.length ?_ ?_
    · have hlength := congrArg List.length hcall
      simp only [List.length_append] at hlength
      have htotal : "A::f(x) \x7b f(g(x)); \x7d ;".toList.length = 22 := by decide
      have hcalllength : (callOf span.name).length = 5 := by decide
      omega
    · rw [hcall, List.append_assoc, List.drop_left]
      exact List.prefix_append _ v

end GrowthEstimate
