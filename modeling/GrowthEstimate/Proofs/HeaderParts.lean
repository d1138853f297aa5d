import GrowthEstimate.Header.Script
import GrowthEstimate.Proofs.FunctionNames
import GrowthEstimate.Proofs.LeadingKeywords
import Mathlib.Computability.Language

/-!
# Parts of script headers

A header of a script function is made of identifiers, blanks, types, parameter lists and arrows.
Each of these is a class of texts, and a class of larger parts is built from smaller ones.  Read
from the left, a part ends where the next one cannot begin earlier, so what is behind the part in
front is known without trying.

* `mem_blankRun_mul`, `mem_named_mul`, `mem_parameterList_mul`, `mem_declaredType_mul`: where a
  part ends and the rest begins;
* `isArrowFunction_iff`, `isMemberFunction_iff`, `maybeAsync_iff`: what is taken for a function is
  what begins with the parameters of one.
-/

/-- A class of texts, built from others by choice and by one behind the other. -/
abbrev TextClass := Language Char

namespace GrowthEstimate.Header

open Text

/-! ## The parts -/

def blankRun : TextClass := {s | ∀ c ∈ s, isBlank c = true}

def gap : TextClass := {s | s ≠ [] ∧ s ∈ blankRun}

def word (w : String) : TextClass := {w.toList}

def maybe (part : TextClass) : TextClass := 1 + part

def identifier : TextClass :=
  {s | ∃ c t, s = c :: t ∧ isIdentifierStart c = true ∧ ∀ d ∈ t, isIdentifierChar d = true}

def named (name : Text) : TextClass := {s | s = name ∧ s ∈ identifier}

def declaredType : TextClass := {s | ∃ t, s = ':' :: t ∧ t ≠ [] ∧ '=' ∉ t}

def parameterList : TextClass := {s | ∃ t, s = '(' :: (t ++ [')']) ∧ ')' ∉ t}

def arrow : TextClass := word "=>" * ⊤

def functionWord : TextClass :=
  {s | ∃ t, s = "function".toList ++ t ∧ beginsWithWordChar t = false}

def asyncBefore (function : TextClass) : TextClass := maybe (word "async" * gap) * function

/-- A text that begins with the parameters of an arrow function and the arrow. -/
def arrowFunction : TextClass :=
  (parameterList * maybe (blankRun * declaredType) + identifier) * blankRun * arrow

def memberFunction : TextClass :=
  functionWord + (parameterList + identifier) * blankRun * arrow

/-! ## First characters -/

def StartsIn (p : Char → Bool) (K : TextClass) : Prop := ∀ s ∈ K, s.head?.any p = true

section

variable {p : Char → Bool} {K L : TextClass} {s : Text}

theorem StartsIn.mul (h : StartsIn p K) (L : TextClass) : StartsIn p (K * L) := by
  intro s hs
  obtain ⟨a, ha, b, -, rfl⟩ := Language.mem_mul.1 hs
  have hfirst := h a ha
  cases a with
  | nil => cases hfirst
  | cons c a => exact hfirst

theorem StartsIn.add (hK : StartsIn p K) (hL : StartsIn p L) : StartsIn p (K + L) := by
  rintro s (hs | hs)
  · exact hK s hs
  · exact hL s hs

theorem StartsIn.maybe_mul (hK : StartsIn p K) (hL : StartsIn p L) : StartsIn p (maybe K * L) := by
  rw [maybe, add_mul, one_mul]
  exact hL.add (hK.mul L)

theorem StartsIn.blankRun_mul (h : StartsIn p L) (hblank : ∀ c, isBlank c = true → p c = true) :
    StartsIn p (blankRun * L) := by
  intro s hs
  obtain ⟨a, ha, b, hb, rfl⟩ := Language.mem_mul.1 hs
  cases a with
  | nil => exact h b hb
  | cons c a => exact hblank c (ha c List.mem_cons_self)

theorem StartsIn.mono {q : Char → Bool} (h : StartsIn p K) (hpq : ∀ c, p c = true → q c = true) :
    StartsIn q K := by
  intro s hs
  have hfirst := h s hs
  cases s with
  | nil => cases hfirst
  | cons c s => exact hpq c hfirst

theorem startsIn_word {w : String} (h : w.toList.head?.any p = true) : StartsIn p (word w) := by
  rintro s rfl
  exact h

theorem startsIn_identifier (h : ∀ c, isIdentifierStart c = true → p c = true) :
    StartsIn p identifier := by
  rintro s ⟨c, t, rfl, hc, -⟩
  exact h c hc

theorem isIdentifierChar_of_mem_identifier {name : Text} (h : name ∈ identifier) :
    ∀ c ∈ name, isIdentifierChar c = true := by
  obtain ⟨c, t, rfl, hc, ht⟩ := h
  exact List.forall_mem_cons.2 ⟨isIdentifierChar_of_isIdentifierStart hc, ht⟩

theorem startsIn_declaredType (h : p ':' = true) : StartsIn p declaredType := by
  rintro s ⟨t, rfl, -⟩
  exact h

theorem startsIn_parameterList (h : p '(' = true) : StartsIn p parameterList := by
  rintro s ⟨t, rfl, -⟩
  exact h

/-- The characters that may stand behind a name and the blanks behind it. -/
def isMark (c : Char) : Bool := c == ':' || c == '='

theorem StartsIn.of_isMark (h : StartsIn isMark L) : StartsIn (!isBlank ·) L :=
  h.mono fun c hc => by
    rw [isMark, Bool.or_eq_true, beq_iff_eq, beq_iff_eq] at hc
    rcases hc with rfl | rfl <;> rfl

theorem StartsIn.of_isIdentifierStart (h : StartsIn isIdentifierStart L) :
    StartsIn (!isBlank ·) L :=
  h.mono fun c hc => by
    simp [isBlank_of_isIdentifierChar (isIdentifierChar_of_isIdentifierStart hc)]

theorem isIdentifierChar_of_isBlank {c : Char} (h : isBlank c = true) :
    isIdentifierChar c = false := by
  cases hidentifier : isIdentifierChar c with
  | false => rfl
  | true =>
    rw [isBlank_of_isIdentifierChar hidentifier] at h
    cases h

/-- What stands behind a name is no part of it. -/
theorem startsIn_blankRun_mul (h : StartsIn isMark L) :
    StartsIn (!isIdentifierChar ·) (blankRun * L) := by
  refine (h.mono fun c hc => ?_).blankRun_mul fun c hc => ?_
  · rw [isMark, Bool.or_eq_true, beq_iff_eq, beq_iff_eq] at hc
    rcases hc with rfl | rfl <;> decide
  · rw [isIdentifierChar_of_isBlank hc]
    rfl

/-! ## One part in front of the rest -/

theorem mem_maybe_mul : s ∈ maybe K * L ↔ s ∈ L ∨ s ∈ K * L := by
  rw [maybe, add_mul, one_mul]
  exact Iff.rfl

theorem mem_word_mul {w : String} :
    s ∈ word w * L ↔ ∃ rest, after? w.toList s = some rest ∧ rest ∈ L := by
  simp only [Language.mem_mul, after?_eq_some_iff]
  constructor
  · rintro ⟨a, rfl, rest, hrest, rfl⟩
    exact ⟨rest, rfl, hrest⟩
  · rintro ⟨rest, rfl, hrest⟩
    exact ⟨_, rfl, rest, hrest, rfl⟩

/-- A run of blanks ends where the rest begins. -/
theorem mem_blankRun_mul (h : StartsIn (!isBlank ·) L) : s ∈ blankRun * L ↔ trimStart s ∈ L := by
  rw [Language.mem_mul]
  constructor
  · rintro ⟨pad, hpad, rest, hrest, rfl⟩
    have hfirst := h rest hrest
    rw [trimStart_append_of_blank hpad]
    cases rest with
    | nil => exact hrest
    | cons c rest =>
      have hc : isBlank c = false := by simpa using hfirst
      rwa [trimStart, List.dropWhile_cons, hc]
  · intro hrest
    exact ⟨s.takeWhile isBlank, fun c hc => List.all_eq_true.1 List.all_takeWhile c hc,
      trimStart s, hrest, List.takeWhile_append_dropWhile⟩

theorem mem_gap_mul (h : StartsIn (!isBlank ·) L) :
    s ∈ gap * L ↔ s.head?.any isBlank = true ∧ trimStart s ∈ L := by
  rw [← mem_blankRun_mul h, Language.mem_mul, Language.mem_mul]
  constructor
  · rintro ⟨pad, ⟨hne, hpad⟩, rest, hrest, rfl⟩
    obtain ⟨c, pad, rfl⟩ := List.exists_cons_of_ne_nil hne
    exact ⟨hpad c List.mem_cons_self, _, hpad, rest, hrest, rfl⟩
  · rintro ⟨hfirst, pad, hpad, rest, hrest, rfl⟩
    refine ⟨pad, ⟨?_, hpad⟩, rest, hrest, rfl⟩
    rintro rfl
    -- without a blank in front, the rest itself would start with one
    have hother := h rest hrest
    cases rest with
    | nil => cases hfirst
    | cons c rest =>
      rw [List.nil_append, List.head?_cons, Option.any_some] at hfirst
      simp [hfirst] at hother

theorem mem_word_gap_mul {w : String} (h : StartsIn (!isBlank ·) L) :
    s ∈ word w * gap * L ↔ ∃ rest, afterWord? w.toList s = some rest ∧ rest ∈ L := by
  rw [mul_assoc, mem_word_mul]
  simp only [mem_gap_mul h, afterWord?]
  cases after? w.toList s with
  | none => simp
  | some rest => simp

theorem mem_named_mul {name : Text} (h : StartsIn (!isIdentifierChar ·) L) :
    s ∈ named name * L ↔ ∃ rest, takeIdentifier? s = some (name, rest) ∧ rest ∈ L := by
  rw [Language.mem_mul]
  constructor
  · rintro ⟨a, ⟨rfl, c, t, rfl, hc, ht⟩, rest, hrest, rfl⟩
    have hstop : rest.takeWhile isIdentifierChar = [] ∧ rest.dropWhile isIdentifierChar = rest := by
      have hfirst := h rest hrest
      cases rest with
      | nil => exact ⟨rfl, rfl⟩
      | cons d rest =>
        have hd : isIdentifierChar d = false := by simpa using hfirst
        exact ⟨by simp [hd], by simp [hd]⟩
    refine ⟨rest, ?_, hrest⟩
    rw [List.cons_append, takeIdentifier?, if_pos hc, List.takeWhile_append_of_pos ht,
      List.dropWhile_append_of_pos ht, hstop.1, hstop.2, List.append_nil]
  · rintro ⟨rest, htake, hrest⟩
    refine ⟨name, ⟨rfl, ?_⟩, rest, hrest, takeIdentifier?_append htake⟩
    cases s with
    | nil => cases htake
    | cons c s =>
      rw [takeIdentifier?] at htake
      split at htake
      · next hc =>
        cases htake
        exact ⟨c, _, rfl, hc, fun d hd => List.all_eq_true.1 List.all_takeWhile d hd⟩
      · cases htake

theorem mem_identifier_mul (h : StartsIn (!isIdentifierChar ·) L) :
    s ∈ identifier * L ↔ ∃ name rest, takeIdentifier? s = some (name, rest) ∧ rest ∈ L := by
  simp only [← mem_named_mul h, Language.mem_mul]
  constructor
  · rintro ⟨name, hname, rest, hrest, rfl⟩
    exact ⟨name, name, ⟨rfl, hname⟩, rest, hrest, rfl⟩
  · rintro ⟨-, name, ⟨-, hname⟩, rest, hrest, rfl⟩
    exact ⟨name, hname, rest, hrest, rfl⟩

theorem dropWhile_append_cons_self {c : Char} {t : Text} (h : c ∉ t) (rest : Text) :
    (t ++ c :: rest).dropWhile (· != c) = c :: rest := by
  have hinside : ∀ d ∈ t, (d != c) = true := fun d hd => by
    simpa using fun hdc : d = c => h (hdc ▸ hd)
  rw [List.dropWhile_append_of_pos hinside]
  simp

/-- A parameter list ends at the first closing parenthesis. -/
theorem mem_parameterList_mul :
    s ∈ parameterList * L ↔ ∃ rest, afterParenthesised? s = some rest ∧ rest ∈ L := by
  rw [Language.mem_mul]
  constructor
  · rintro ⟨a, ⟨t, rfl, ht⟩, rest, hrest, rfl⟩
    refine ⟨rest, ?_, hrest⟩
    simp [afterParenthesised?, dropWhile_append_cons_self ht]
  · rintro ⟨rest, hafter, hrest⟩
    cases s with
    | nil => cases hafter
    | cons c s =>
      rw [afterParenthesised?] at hafter
      split at hafter
      · next hopen =>
        cases hafter
        simp only [Bool.and_eq_true, beq_iff_eq, List.contains_iff_mem] at hopen
        obtain ⟨rfl, hclose⟩ := hopen
        obtain ⟨t, rest, rfl, ht⟩ := List.eq_append_cons_of_mem hclose
        rw [dropWhile_append_cons_self ht] at hrest
        exact ⟨'(' :: (t ++ [')']), ⟨t, rfl, ht⟩, rest, hrest, by simp⟩
      · cases hafter

/-- A type ends in front of the first equals sign. -/
theorem mem_declaredType_mul (h : StartsIn (· == '=') L) :
    s ∈ declaredType * L ↔ ∃ rest, afterAnnotation? s = some rest ∧ rest ∈ L := by
  rw [Language.mem_mul]
  constructor
  · rintro ⟨a, ⟨t, rfl, hne, ht⟩, rest, hrest, rfl⟩
    have hfirst := h rest hrest
    refine ⟨rest, ?_, hrest⟩
    cases rest with
    | nil => cases hfirst
    | cons d rest =>
      obtain rfl : d = '=' := by simpa using hfirst
      have hdeclared : after? ":".toList (':' :: t ++ '=' :: rest) = some (t ++ '=' :: rest) :=
        after?_eq_some_iff.2 rfl
      have htype : upTo '=' (t ++ '=' :: rest) = t := by
        rw [upTo_append ht, upTo_cons_self, List.append_nil]
      rw [afterAnnotation?, hdeclared]
      simp [htype, dropWhile_append_cons_self ht, hne]
  · rintro ⟨rest, hafter, hrest⟩
    rw [afterAnnotation?] at hafter
    split at hafter
    · next declared hdeclared =>
      split at hafter
      · cases hafter
      · next hne =>
        cases hafter
        refine ⟨':' :: upTo '=' declared, ⟨_, rfl, by simpa using hne, ?_⟩, _, hrest, ?_⟩
        · intro hmem
          have hnot := List.all_eq_true.1 List.all_takeWhile _ hmem
          simp at hnot
        · rw [after?_eq_some_iff.1 hdeclared, upTo, List.cons_append,
            List.takeWhile_append_dropWhile]
          rfl
    · cases hafter

/-! ## Functions -/

theorem startsIn_arrow : StartsIn (· == '=') arrow := (startsIn_word rfl).mul _

theorem startsIn_blankRun_arrow : StartsIn (!isIdentifierChar ·) (blankRun * arrow) :=
  startsIn_blankRun_mul (startsIn_arrow.mono fun c hc => by simp [isMark, eq_of_beq hc])

theorem startsWith_arrow_iff : startsWith "=>".toList s = true ↔ s ∈ arrow := by
  rw [arrow, mem_word_mul, startsWith, List.isPrefixOf_iff_prefix]
  constructor
  · rintro ⟨rest, hs⟩
    exact ⟨rest, after?_eq_some_iff.2 hs.symm, trivial⟩
  · rintro ⟨rest, hs, -⟩
    exact ⟨rest, (after?_eq_some_iff.1 hs).symm⟩

theorem arrowFollows_iff : arrowFollows s = true ↔ s ∈ blankRun * arrow := by
  have hfirst : StartsIn (!isBlank ·) arrow := startsIn_arrow.mono fun c hc => by
    rw [eq_of_beq hc]
    rfl
  rw [arrowFollows, startsWith_arrow_iff, mem_blankRun_mul hfirst]

theorem isBareArrow_iff : isBareArrow s = true ↔ s ∈ identifier * (blankRun * arrow) := by
  rw [isBareArrow, mem_identifier_mul startsIn_blankRun_arrow, Option.any_eq_true]
  simp only [arrowFollows_iff, Prod.exists]

/-- Blanks behind a type are part of it. -/
theorem declaredType_mul_blankRun : declaredType * blankRun = declaredType := by
  ext s
  rw [Language.mem_mul]
  constructor
  · rintro ⟨a, ⟨t, rfl, hne, ht⟩, pad, hpad, rfl⟩
    refine ⟨t ++ pad, rfl, by simp [hne], ?_⟩
    rw [List.mem_append, not_or]
    refine ⟨ht, fun hmem => ?_⟩
    have hblank := hpad _ hmem
    cases hblank
  · intro hs
    exact ⟨s, hs, [], by rintro c ⟨⟩, List.append_nil s⟩

theorem isTypedArrow_iff :
    isTypedArrow s = true ↔
      s ∈ parameterList * maybe (blankRun * declaredType) * (blankRun * arrow) := by
  have hfirst : StartsIn (!isBlank ·) (declaredType * arrow) := (startsIn_declaredType rfl).mul _
  have htyped :
      blankRun * declaredType * (blankRun * arrow) = blankRun * (declaredType * arrow) := by
    rw [mul_assoc, ← mul_assoc declaredType, declaredType_mul_blankRun]
  rw [mul_assoc, mem_parameterList_mul, isTypedArrow, Option.any_eq_true]
  simp only [mem_maybe_mul, htyped, mem_blankRun_mul hfirst, mem_declaredType_mul startsIn_arrow,
    Bool.or_eq_true, arrowFollows_iff, Option.any_eq_true, startsWith_arrow_iff]

theorem isArrowFunction_iff : isArrowFunction s = true ↔ s ∈ arrowFunction := by
  rw [isArrowFunction, Bool.or_eq_true, isTypedArrow_iff, isBareArrow_iff, arrowFunction,
    mul_assoc _ blankRun arrow, add_mul]
  exact Iff.rfl

theorem mem_functionWord_iff :
    s ∈ functionWord ↔
      (after? "function".toList s).any (fun rest => !beginsWithWordChar rest) = true := by
  rw [Option.any_eq_true]
  simp only [after?_eq_some_iff, Bool.not_eq_true']
  exact Iff.rfl

theorem isMemberFunction_iff : isMemberFunction s = true ↔ s ∈ memberFunction := by
  have hlist : (afterParenthesised? s).any arrowFollows = true ↔
      s ∈ parameterList * (blankRun * arrow) := by
    rw [Option.any_eq_true, mem_parameterList_mul]
    simp only [arrowFollows_iff]
  rw [isMemberFunction, Bool.or_eq_true, Bool.or_eq_true, ← mem_functionWord_iff, hlist,
    isBareArrow_iff, memberFunction, mul_assoc _ blankRun arrow, add_mul, or_assoc]
  exact Iff.rfl

theorem maybeAsync_iff {isFunction : Text → Bool} {function : TextClass}
    (hiff : ∀ s, isFunction s = true ↔ s ∈ function) (h : StartsIn (!isBlank ·) function) :
    maybeAsync isFunction s = true ↔ s ∈ asyncBefore function := by
  rw [asyncBefore, mem_maybe_mul, mem_word_gap_mul h, maybeAsync, Bool.or_eq_true, hiff, hiff,
    skipWord]
  cases hafter : afterWord? "async".toList s with
  | none => simp
  | some rest => simp [or_comm]

end

end GrowthEstimate.Header
