import Mathlib.Data.Bool.AllAny
import GrowthEstimate.Header.Braced
import GrowthEstimate.Proofs.Spacing

/-!
# Lines that a keyword leads

A line that a control or statement keyword leads declares no braced function, as long as the
keyword is a word of its own.  A character that is written right behind the keyword makes another
word of it, and that word is not told from the first word of a declaration.

* `words_append_of_word`: the first word of a text and the words behind it;
* `bracedName?_eq_some_iff`: when a line declares a function, and with which name;
* `bracedName?_call`: a line with one more word in front of a parenthesis and a brace declares a
  function;
* `glued_keyword_declares`: a brace right behind a keyword, and a function that is none;
* `bracedName?_of_keyword`: the characters behind a keyword that keep the line from declaring
  anything.
-/

namespace GrowthEstimate

namespace Text

/-- A text without blanks is a word of its own when nothing or a blank follows it. -/
theorem words_append_of_word {word : Text} (hne : word ≠ []) (hword : ∀ c ∈ word, isBlank c = false)
    {rest : Text} (hrest : ∀ c ∈ rest.head?, isBlank c = true) :
    words (word ++ rest) = word :: words rest := by
  have hone : words word = [word] := words_of_plain hne hword
  cases rest with
  | nil => rw [List.append_nil, hone]; rfl
  | cons c rest =>
    have hc : isBlank c = true := hrest c rfl
    rw [words_append_blank hc, words_cons_blank hc, hone]
    rfl

theorem upTo_append {c : Char} {s : Text} (h : c ∉ s) (t : Text) :
    upTo c (s ++ t) = s ++ upTo c t :=
  List.takeWhile_append_of_pos fun d hd => by
    simpa using fun hdc : d = c => h (hdc ▸ hd)

theorem upTo_cons_self (c : Char) (s : Text) : upTo c (c :: s) = [] := by simp [upTo]

theorem takeIdentifier?_append_of_not {s : Text} (h : takeIdentifier? s = some (s, [])) {c : Char}
    (hc : isIdentifierChar c = false) (rest : Text) :
    takeIdentifier? (s ++ c :: rest) = some (s, c :: rest) := by
  cases s with
  | nil => cases h
  | cons d s =>
    rw [takeIdentifier?] at h
    split at h
    · next hd =>
      have hrest : s.dropWhile isIdentifierChar = [] := by simpa using congrArg (·.map Prod.snd) h
      have hall : ∀ e ∈ s, isIdentifierChar e = true := List.dropWhile_eq_nil_iff.1 hrest
      rw [List.cons_append, takeIdentifier?, if_pos hd, List.takeWhile_append_of_pos hall,
        List.dropWhile_append_of_pos hall]
      simp [hc]
    · cases h

end Text

namespace Header

open Text

/-! ## What a line declares -/

/-- A line without the braces in front of it that close earlier blocks, and the blanks behind
them. -/
def behindClosing (line : Text) : Text := trimStart (line.dropWhile (· == '}'))

theorem bracedName?_eq_some_iff {line name : Text} :
    bracedName? line = some name ↔
      '(' ∈ behindClosing line ∧ occursIn "=>".toList (behindClosing line) = false
        ∧ ('{' ∈ behindClosing line ∨ endsWith ";".toList (behindClosing line) = true)
        ∧ '=' ∉ upTo '(' (behindClosing line)
        ∧ (words (upTo '(' (behindClosing line))).getLast? = some name
        ∧ declares (words (upTo '(' (behindClosing line))) name
          ((behindClosing line).contains '{') = true := by
  simp only [bracedName?, behindClosing]
  generalize trimStart (line.dropWhile (· == '}')) = rest
  generalize "=>".toList = arrow
  generalize ";".toList = stop
  cases (words (upTo '(' rest)).getLast? with
  | none => simp
  | some last =>
    simp only [Option.ite_none_right_eq_some, Option.some.injEq, Bool.and_eq_true,
      Bool.or_eq_true, Bool.not_eq_true', List.contains_iff_mem]
    constructor
    · rintro ⟨⟨⟨⟨hopen, harrow⟩, hbody⟩, hequals⟩, hdeclares, rfl⟩
      exact ⟨hopen, harrow, hbody, by simpa using hequals, rfl, hdeclares⟩
    · rintro ⟨hopen, harrow, hbody, hequals, rfl, hdeclares⟩
      exact ⟨⟨⟨⟨hopen, harrow⟩, hbody⟩, by simpa using hequals⟩, hdeclares, rfl⟩

theorem behindClosing_of_head {line : Text}
    (h : ∀ c ∈ line.head?, c ≠ '}' ∧ isBlank c = false) : behindClosing line = line := by
  cases line with
  | nil => rfl
  | cons c line =>
    obtain ⟨hclosing, hblank⟩ := h c rfl
    simp [behindClosing, trimStart, hclosing, hblank]

/-- Words in front of a parenthesis, the last of which is the name, declare a function when a brace
follows. -/
theorem bracedName?_call {before rest name : Text} (hne : before ≠ [])
    (hfront : ∀ c ∈ before.head?, c ≠ '}' ∧ isBlank c = false) (hopen : '(' ∉ before)
    (hequals : '=' ∉ before) (harrow : occursIn "=>".toList (before ++ '(' :: rest) = false)
    (hbrace : '{' ∈ rest) (hlast : (words before).getLast? = some name)
    (hdeclares : declares (words before) name true = true) :
    bracedName? (before ++ '(' :: rest) = some name := by
  have hbehind : behindClosing (before ++ '(' :: rest) = before ++ '(' :: rest := by
    obtain ⟨c, before, rfl⟩ := List.exists_cons_of_ne_nil hne
    exact behindClosing_of_head hfront
  have hbefore : upTo '(' (before ++ '(' :: rest) = before := by
    rw [upTo_append hopen, upTo_cons_self, List.append_nil]
  have hbody : (before ++ '(' :: rest).contains '{' = true := by simp [hbrace]
  rw [bracedName?_eq_some_iff, hbehind, hbefore, hbody]
  exact ⟨by simp, harrow, Or.inl (List.contains_iff_mem.1 hbody), hequals, hlast, hdeclares⟩

/-! ## Keywords -/

/-- Every keyword is an identifier, with nothing left behind it. -/
theorem takeIdentifier?_keyword {keyword : Text} (h : keyword ∈ leadingKeywords) :
    takeIdentifier? keyword = some (keyword, []) := by
  revert keyword
  decide

theorem plain_of_mem_keyword {keyword : Text} (h : keyword ∈ leadingKeywords) :
    keyword ≠ [] ∧ ∀ c ∈ keyword, isBlank c = false ∧ c ≠ '(' ∧ c ≠ '=' ∧ c ≠ '}' := by
  have hall : ∀ word ∈ leadingKeywords, word ≠ [] ∧
      (word.all fun c => isBlank c = false ∧ c ≠ '(' ∧ c ≠ '=' ∧ c ≠ '}') = true := by decide
  obtain ⟨hne, hplain⟩ := hall keyword h
  exact ⟨hne, List.all_iff_forall_prop.1 hplain⟩

theorem bracedName?_eq_none_of_word {line keyword : Text} (hkeyword : keyword ∈ leadingKeywords)
    (hhead : (words (upTo '(' (behindClosing line))).head? = some keyword) :
    bracedName? line = none := by
  rw [Option.eq_none_iff_forall_ne_some]
  intro name hname
  obtain ⟨-, -, -, -, -, hdeclares⟩ := bracedName?_eq_some_iff.1 hname
  simp [declares, hhead, hkeyword] at hdeclares

/-- A keyword in front of nothing, a blank or a parenthesis is a word of its own. -/
theorem head?_words_keyword {keyword : Text} (hkeyword : keyword ∈ leadingKeywords) {rest : Text}
    (hrest : ∀ c ∈ rest.head?, isBlank c = true ∨ c = '(') :
    (words (upTo '(' (keyword ++ rest))).head? = some keyword := by
  obtain ⟨hne, hplain⟩ := plain_of_mem_keyword hkeyword
  have hopen : '(' ∉ keyword := fun h => (hplain _ h).2.1 rfl
  have hbehind : ∀ c ∈ (upTo '(' rest).head?, isBlank c = true := by
    cases rest with
    | nil => simp [upTo]
    | cons c rest =>
      rcases hrest c rfl with hblank | rfl
      · have hparen : c ≠ '(' := by
          rintro rfl
          cases hblank
        simp [upTo, hparen, hblank]
      · simp [upTo]
  rw [upTo_append hopen, words_append_of_word hne (fun c hc => (hplain c hc).1) hbehind]
  rfl

/-- A character glued to a keyword makes a word that is no keyword. -/
theorem glued_not_mem_leadingKeywords {keyword : Text} (hkeyword : keyword ∈ leadingKeywords)
    {c : Char} (hc : isIdentifierChar c = false) : keyword ++ [c] ∉ leadingKeywords := by
  intro hglued
  have hwhole := takeIdentifier?_keyword hglued
  rw [takeIdentifier?_append_of_not (takeIdentifier?_keyword hkeyword) hc] at hwhole
  simp at hwhole

theorem occursIn_eq_false_of_not_mem {token s : Text} {c : Char} (hc : c ∈ token) (h : c ∉ s) :
    occursIn token s = false := by
  rw [← Bool.not_eq_true, occursIn_iff_part]
  exact fun hpart => h (hpart.mem hc)

/-- A word that is no keyword and a call of `f` behind it read as a declaration of `f`. -/
theorem bracedName?_word_call {word : Text} (hne : word ≠ []) (hkeyword : word ∉ leadingKeywords)
    (hword : ∀ c ∈ word, isBlank c = false ∧ c ≠ '(' ∧ c ≠ '=')
    (hclosing : word.head? ≠ some '}') :
    bracedName? (word ++ " f() \x7b".toList) = some "f".toList := by
  have hline : word ++ " f() \x7b".toList = (word ++ " f".toList) ++ '(' :: ") \x7b".toList := by
    simp
  have hwords : words (word ++ " f".toList) = [word, "f".toList] := by
    have hf : words " f".toList = ["f".toList] := by decide
    have hspace : ∀ c ∈ " f".toList.head?, isBlank c = true := by
      rintro c ⟨⟩
      rfl
    rw [words_append_of_word hne (fun c hc => (hword c hc).1) hspace, hf]
  have hbefore : ∀ c ∈ word ++ " f".toList, c ≠ '(' ∧ c ≠ '=' := by
    have hf : ∀ c ∈ " f".toList, c ≠ '(' ∧ c ≠ '=' := by simp
    intro c hc
    rcases List.mem_append.1 hc with hc | hc
    · exact (hword c hc).2
    · exact hf c hc
  have hequals : '=' ∉ word ++ " f".toList := fun h => (hbefore _ h).2 rfl
  have hrest : '=' ∉ '(' :: ") \x7b".toList := by decide
  have hdeclares : declares [word, "f".toList] "f".toList true = true := by
    have hname : controlKeywords.contains "f".toList = false ∧ isQualifiedName "f".toList = true
        ∧ isAcceptableName "f".toList = true := by decide
    simp only [declares, hname]
    simp [hkeyword]
  rw [hline]
  refine bracedName?_call (by simp) ?_ (fun h => (hbefore _ h).1 rfl) hequals ?_ (by decide)
    (by rw [hwords]; rfl) (by rwa [hwords])
  · obtain ⟨c, word, rfl⟩ := List.exists_cons_of_ne_nil hne
    rintro d ⟨⟩
    exact ⟨fun h => hclosing (congrArg some h), (hword _ List.mem_cons_self).1⟩
  · refine occursIn_eq_false_of_not_mem (c := '=') (by decide) fun h => ?_
    exact (List.mem_append.1 h).elim hequals hrest

/-- A call behind a keyword that another character is glued to. -/
theorem exists_line_of_glued {keyword : Text} (hkeyword : keyword ∈ leadingKeywords) {c : Char}
    (hc : isIdentifierChar c = false) (hblank : isBlank c = false) (hopen : c ≠ '(')
    (hequals : c ≠ '=') :
    ∃ line rest, takeIdentifier? (behindClosing line) = some (keyword, c :: rest)
      ∧ bracedName? line = some "f".toList := by
  obtain ⟨hne, hplain⟩ := plain_of_mem_keyword hkeyword
  obtain ⟨k, ks, hcons⟩ := List.exists_cons_of_ne_nil hne
  have hk := hplain k (by simp [hcons])
  have hword : ∀ d ∈ keyword ++ [c], isBlank d = false ∧ d ≠ '(' ∧ d ≠ '=' := by
    intro d hd
    rcases List.mem_append.1 hd with hd | hd
    · exact ⟨(hplain d hd).1, (hplain d hd).2.1, (hplain d hd).2.2.1⟩
    · rw [List.mem_singleton.1 hd]
      exact ⟨hblank, hopen, hequals⟩
  refine ⟨keyword ++ [c] ++ " f() \x7b".toList, " f() \x7b".toList, ?_, ?_⟩
  · have hfront : ∀ d ∈ (keyword ++ [c] ++ " f() \x7b".toList).head?,
        d ≠ '}' ∧ isBlank d = false := by
      intro d hd
      obtain rfl : k = d := by simpa [hcons] using hd
      exact ⟨hk.2.2.2, hk.1⟩
    rw [behindClosing_of_head hfront, List.append_assoc]
    exact takeIdentifier?_append_of_not (takeIdentifier?_keyword hkeyword) hc _
  · refine bracedName?_word_call (by simp) (glued_not_mem_leadingKeywords hkeyword hc) hword ?_
    simpa [hcons] using hk.2.2.2

/-- A brace right behind a keyword makes another word of it, and the next word a name. -/
theorem glued_keyword_declares :
    "else".toList ∈ leadingKeywords
      ∧ takeIdentifier? (behindClosing "\x7d else\x7b f(x); \x7d".toList) =
        some ("else".toList, "\x7b f(x); \x7d".toList)
      ∧ bracedName? "\x7d else\x7b f(x); \x7d".toList = some "f".toList := by
  decide +kernel

/-- A line that a keyword leads declares no function when nothing stands behind the keyword, and
whatever stands there from a blank, a parenthesis or an equals sign on.  Any other character that
is no part of the keyword leads on to a line that declares one. -/
theorem bracedName?_of_keyword (keyword : Text) (hkeyword : keyword ∈ leadingKeywords) :
    (∀ line, takeIdentifier? (behindClosing line) = some (keyword, []) → bracedName? line = none)
      ∧ ∀ c, isIdentifierChar c = false →
        ((∀ line rest, takeIdentifier? (behindClosing line) = some (keyword, c :: rest) →
            bracedName? line = none) ↔ isBlank c = true ∨ c = '(' ∨ c = '=') := by
  refine ⟨fun line hline => ?_, fun c hc => ⟨fun hnone => ?_, ?_⟩⟩
  · apply bracedName?_eq_none_of_word hkeyword
    rw [← takeIdentifier?_append hline]
    exact head?_words_keyword hkeyword (by simp)
  · by_contra hglued
    simp only [not_or, Bool.not_eq_true] at hglued
    obtain ⟨hblank, hopen, hequals⟩ := hglued
    obtain ⟨line, rest, hlead, hname⟩ := exists_line_of_glued hkeyword hc hblank hopen hequals
    rw [hnone line rest hlead] at hname
    cases hname
  · intro hbehind line rest hline
    have hsplit := takeIdentifier?_append hline
    rcases or_assoc.2 hbehind with hword | rfl
    · apply bracedName?_eq_none_of_word hkeyword
      rw [← hsplit]
      exact head?_words_keyword hkeyword (by simpa using hword)
    · have hopen : '(' ∉ keyword := fun h => ((plain_of_mem_keyword hkeyword).2 _ h).2.1 rfl
      rw [Option.eq_none_iff_forall_ne_some]
      intro name hname
      obtain ⟨-, -, -, hequals, -, -⟩ := bracedName?_eq_some_iff.1 hname
      rw [← hsplit, upTo_append hopen] at hequals
      exact hequals (by simp [upTo])

/-- Each way in which a keyword can keep a line from declaring anything, with blanks of any kind and
without any. -/
theorem bracedName?_of_keyword_return :
    let keyword := "return".toList
    keyword ∈ leadingKeywords ∧ isIdentifierChar '\t' = false ∧ isIdentifierChar '[' = false
      ∧ takeIdentifier? (behindClosing "\x7d\x7d return\tf(x) \x7b".toList) =
        some (keyword, "\tf(x) \x7b".toList)
      ∧ bracedName? "\x7d\x7d return\tf(x) \x7b".toList = none
      ∧ ¬ ∀ line rest, takeIdentifier? (behindClosing line) = some (keyword, '[' :: rest) →
        bracedName? line = none := by
  have hkeyword : "return".toList ∈ leadingKeywords := by decide
  have htab : isIdentifierChar '\t' = false := by decide
  have hbracket : isIdentifierChar '[' = false := by decide
  have hlead : takeIdentifier? (behindClosing "\x7d\x7d return\tf(x) \x7b".toList) =
      some ("return".toList, "\tf(x) \x7b".toList) := by decide +kernel
  obtain ⟨-, hbehind⟩ := bracedName?_of_keyword "return".toList hkeyword
  refine ⟨hkeyword, htab, hbracket, hlead, ?_, ?_⟩
  · exact (hbehind '\t' htab).2 (Or.inl (by decide)) _ _ hlead
  · rw [hbehind '[' hbracket]
    decide

end Header

end GrowthEstimate
