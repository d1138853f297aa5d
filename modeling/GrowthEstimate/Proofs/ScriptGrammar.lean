import GrowthEstimate.Proofs.HeaderParts

/-!
# The grammar of script headers

A script function is declared by an arrow function that is assigned to a name, or by a member of an
object that is a function.  The parts of either shape that may be left out make for many ways to
read a line, and all of them give the same name: it is the identifier behind the declarator, when an
identifier stands there, and else the first one of the line.

* `arrowName?_eq_some_iff`, `memberName?_eq_some_iff`: the names that the two shapes give;
* `takeIdentifier?_of_mem_scriptHeader`: where the name of a header stands;
* `scriptName?_grammar`: which lines declare a script function, and under which name.
-/

namespace GrowthEstimate.Header

open Text

/-! ## The grammar -/

def keyword : TextClass := word "const" + word "let" + word "var"

/-- What may stand in front of a name that is assigned to. -/
def declarator : TextClass := maybe (word "export" * gap) * keyword * gap

def assignedValue : TextClass := blankRun * asyncBefore arrowFunction

def assignmentRest : TextClass := blankRun * maybe declaredType * word "=" * assignedValue

def memberRest : TextClass := blankRun * word ":" * blankRun * asyncBefore memberFunction

def assignment (name : Text) : TextClass := maybe declarator * named name * assignmentRest

def member (name : Text) : TextClass := named name * memberRest

/-- A line of either shape. -/
def scriptHeader (name : Text) : TextClass := assignment name + member name

section

variable {K L : TextClass} {s : Text}

/-! ## What stands behind a name -/

def startsValue (c : Char) : Bool := isIdentifierStart c || c == '('

theorem isBlank_of_startsValue {c : Char} (h : startsValue c = true) : isBlank c = false := by
  rw [startsValue, Bool.or_eq_true, beq_iff_eq] at h
  rcases h with hstart | rfl
  · exact isBlank_of_isIdentifierChar (isIdentifierChar_of_isIdentifierStart hstart)
  · rfl

theorem startsIn_identifier_value : StartsIn startsValue identifier :=
  startsIn_identifier fun c hc => by simp [startsValue, hc]

theorem startsIn_asyncBefore {function : TextClass} (h : StartsIn startsValue function) :
    StartsIn (!isBlank ·) (asyncBefore function) := by
  have hasync : StartsIn startsValue (asyncBefore function) :=
    ((startsIn_word rfl).mul gap).maybe_mul h
  exact hasync.mono fun c hc => by simp [isBlank_of_startsValue hc]

theorem startsIn_arrowFunction : StartsIn startsValue arrowFunction := by
  rw [arrowFunction, mul_assoc]
  exact (((startsIn_parameterList rfl).mul _).add startsIn_identifier_value).mul _

theorem startsIn_memberFunction : StartsIn startsValue memberFunction := by
  have hword : StartsIn startsValue functionWord := by
    rintro s ⟨t, rfl, -⟩
    rfl
  rw [memberFunction, mul_assoc]
  exact hword.add (((startsIn_parameterList rfl).add startsIn_identifier_value).mul _)

theorem mem_assignedValue_iff :
    s ∈ assignedValue ↔ maybeAsync isArrowFunction (trimStart s) = true := by
  rw [assignedValue, mem_blankRun_mul (startsIn_asyncBefore startsIn_arrowFunction),
    maybeAsync_iff (fun _ => isArrowFunction_iff)
      (startsIn_arrowFunction.mono fun c hc => by simp [isBlank_of_startsValue hc])]

theorem head?_of_afterAnnotation? {t rest : Text} (h : afterAnnotation? t = some rest) :
    t.head? = some ':' := by
  rw [afterAnnotation?] at h
  split at h
  · next declared hdeclared =>
    rw [after?_eq_some_iff.1 hdeclared]
    rfl
  · cases h

/-- A type in front of the equals sign is passed over. -/
theorem mem_maybe_declaredType_mul {t : Text} :
    t ∈ maybe declaredType * (word "=" * L) ↔
      ∃ value, after? "=".toList ((afterAnnotation? t).getD t) = some value ∧ value ∈ L := by
  rw [mem_maybe_mul, mem_declaredType_mul ((startsIn_word rfl).mul L)]
  simp only [mem_word_mul]
  cases htype : afterAnnotation? t with
  | none => simp
  | some rest =>
    have hnot : after? "=".toList t = none := by
      have hhead := head?_of_afterAnnotation? htype
      cases t with
      | nil => rfl
      | cons c t =>
        obtain rfl : c = ':' := by simpa using hhead
        rfl
    simp only [hnot, Option.getD_some, Option.some.injEq, exists_eq_left', reduceCtorEq, false_and,
      exists_false, false_or]

theorem assignmentRest_eq :
    assignmentRest = blankRun * (maybe declaredType * (word "=" * assignedValue)) := by
  simp only [assignmentRest, mul_assoc]

theorem memberRest_eq :
    memberRest = blankRun * (word ":" * (blankRun * asyncBefore memberFunction)) := by
  simp only [memberRest, mul_assoc]

theorem startsIn_assignmentMark :
    StartsIn isMark (maybe declaredType * (word "=" * assignedValue)) :=
  (startsIn_declaredType rfl).maybe_mul ((startsIn_word rfl).mul _)

theorem startsIn_memberMark :
    StartsIn isMark (word ":" * (blankRun * asyncBefore memberFunction)) :=
  (startsIn_word rfl).mul _

theorem mem_assignmentRest_iff :
    s ∈ assignmentRest ↔ ∃ value,
      after? "=".toList ((afterAnnotation? (trimStart s)).getD (trimStart s)) = some value
        ∧ maybeAsync isArrowFunction (trimStart value) = true := by
  rw [assignmentRest_eq, mem_blankRun_mul startsIn_assignmentMark.of_isMark,
    mem_maybe_declaredType_mul]
  simp only [mem_assignedValue_iff]

theorem mem_memberRest_iff :
    s ∈ memberRest ↔ ∃ value, after? ":".toList (trimStart s) = some value
      ∧ maybeAsync isMemberFunction (trimStart value) = true := by
  have hvalue : StartsIn (!isBlank ·) (asyncBefore memberFunction) :=
    startsIn_asyncBefore startsIn_memberFunction
  have hnotBlank : StartsIn (!isBlank ·) memberFunction :=
    startsIn_memberFunction.mono fun c hc => by simp [isBlank_of_startsValue hc]
  rw [memberRest_eq, mem_blankRun_mul startsIn_memberMark.of_isMark, mem_word_mul]
  simp only [mem_blankRun_mul hvalue, maybeAsync_iff (fun _ => isMemberFunction_iff) hnotBlank]

theorem startsIn_assignmentRest : StartsIn (!isIdentifierChar ·) assignmentRest := by
  rw [assignmentRest_eq]
  exact startsIn_blankRun_mul startsIn_assignmentMark

theorem startsIn_memberRest : StartsIn (!isIdentifierChar ·) memberRest := by
  rw [memberRest_eq]
  exact startsIn_blankRun_mul startsIn_memberMark

/-- The identifier that starts a text, when `cut?` finds the beginning of a value behind it and the
value is a function. -/
def nameBefore? (cut? : Text → Option Text) (isFunction : Text → Bool) (s : Text) : Option Text :=
  match takeIdentifier? s with
  | none => none
  | some (name, rest) =>
    match cut? rest with
    | none => none
    | some value => if isFunction value then some name else none

theorem nameBefore?_eq_some_iff {cut? : Text → Option Text} {isFunction : Text → Bool}
    {name : Text} :
    nameBefore? cut? isFunction s = some name ↔
      ∃ rest, takeIdentifier? s = some (name, rest)
        ∧ ∃ value, cut? rest = some value ∧ isFunction value = true := by
  rw [nameBefore?]
  cases takeIdentifier? s with
  | none => simp
  | some taken =>
    obtain ⟨first, rest⟩ := taken
    simp only [Option.some.injEq, Prod.mk.injEq, and_assoc, exists_and_left, exists_eq_left']
    cases cut? rest with
    | none => simp
    | some value => simp [and_comm]

theorem assignedName?_eq_some_iff {name : Text} :
    assignedName? s = some name ↔ s ∈ named name * assignmentRest := by
  rw [mem_named_mul startsIn_assignmentRest]
  simp only [mem_assignmentRest_iff]
  exact nameBefore?_eq_some_iff

theorem memberName?_eq_some_iff {name : Text} :
    memberName? s = some name ↔ s ∈ member name := by
  rw [member, mem_named_mul startsIn_memberRest]
  simp only [mem_memberRest_iff]
  exact nameBefore?_eq_some_iff

/-! ## Declarators -/

theorem head?_of_afterWord? {w rest : Text} (hne : w ≠ []) (h : afterWord? w s = some rest) :
    s.head? = w.head? := by
  obtain ⟨c, w, rfl⟩ := List.exists_cons_of_ne_nil hne
  rw [afterWord?] at h
  split at h
  · next behind hbehind =>
    rw [after?_eq_some_iff.1 hbehind]
    rfl
  · cases h

/-- No text starts with two words whose first characters differ. -/
theorem afterWord?_eq_none {w v rest : Text} (hw : w ≠ []) (hv : v ≠ [])
    (hother : w.head? ≠ v.head?) (h : afterWord? w s = some rest) : afterWord? v s = none := by
  rw [Option.eq_none_iff_forall_ne_some]
  intro behind hbehind
  exact hother ((head?_of_afterWord? hw h).symm.trans (head?_of_afterWord? hv hbehind))

/-- What follows `const`, `let` or `var` and the blanks behind it. -/
def afterKeyword? (s : Text) : Option Text :=
  (afterWord? "const".toList s).or ((afterWord? "let".toList s).or (afterWord? "var".toList s))

theorem mem_keyword_mul (h : StartsIn (!isBlank ·) L) :
    s ∈ keyword * gap * L ↔ ∃ rest, afterKeyword? s = some rest ∧ rest ∈ L := by
  have hsplit : s ∈ keyword * gap * L ↔
      s ∈ word "const" * gap * L ∨ s ∈ word "let" * gap * L ∨ s ∈ word "var" * gap * L := by
    rw [keyword, add_mul, add_mul, add_mul, add_mul, Language.mem_add, Language.mem_add, or_assoc]
  simp only [hsplit, mem_word_gap_mul h, afterKeyword?, Option.or_eq_some_iff]
  constructor
  · rintro (⟨rest, hafter, hrest⟩ | ⟨rest, hafter, hrest⟩ | ⟨rest, hafter, hrest⟩)
    · exact ⟨rest, Or.inl hafter, hrest⟩
    · have hconst : afterWord? "const".toList s = none :=
        afterWord?_eq_none (by decide) (by decide) (by decide) hafter
      exact ⟨rest, Or.inr ⟨hconst, Or.inl hafter⟩, hrest⟩
    · have hconst : afterWord? "const".toList s = none :=
        afterWord?_eq_none (by decide) (by decide) (by decide) hafter
      have hlet : afterWord? "let".toList s = none :=
        afterWord?_eq_none (by decide) (by decide) (by decide) hafter
      exact ⟨rest, Or.inr ⟨hconst, Or.inr ⟨hlet, hafter⟩⟩, hrest⟩
  · rintro ⟨rest, hafter | ⟨-, hafter | ⟨-, hafter⟩⟩, hrest⟩
    · exact Or.inl ⟨rest, hafter, hrest⟩
    · exact Or.inr (Or.inl ⟨rest, hafter, hrest⟩)
    · exact Or.inr (Or.inr ⟨rest, hafter, hrest⟩)

def startsKeyword (c : Char) : Bool := c == 'c' || c == 'l' || c == 'v'

theorem isIdentifierStart_of_startsKeyword {c : Char} (h : startsKeyword c = true) :
    isIdentifierStart c = true := by
  simp only [startsKeyword, Bool.or_eq_true, beq_iff_eq] at h
  rcases h with (rfl | rfl) | rfl <;> rfl

theorem startsIn_keyword_mul : StartsIn startsKeyword (keyword * gap * L) := by
  rw [mul_assoc]
  exact (((startsIn_word rfl).add (startsIn_word rfl)).add (startsIn_word rfl)).mul _

theorem declarator_mul (L : TextClass) :
    declarator * L = maybe (word "export" * gap) * (keyword * gap * L) := by
  simp only [declarator, mul_assoc]

theorem startsIn_declarator_mul : StartsIn isIdentifierStart (declarator * L) := by
  rw [declarator_mul]
  exact ((startsIn_word rfl).mul gap).maybe_mul
    (startsIn_keyword_mul.mono fun _ => isIdentifierStart_of_startsKeyword)

theorem mem_declarator_mul (h : StartsIn (!isBlank ·) L) :
    s ∈ declarator * L ↔ ∃ rest, afterDeclarator? s = some rest ∧ rest ∈ L := by
  have hstart : StartsIn isIdentifierStart (keyword * gap * L) :=
    startsIn_keyword_mul.mono fun _ => isIdentifierStart_of_startsKeyword
  have hafter : afterDeclarator? s = afterKeyword? (skipWord "export".toList s) := rfl
  rw [declarator_mul, mem_maybe_mul, mem_word_gap_mul hstart.of_isIdentifierStart, hafter, skipWord,
    ← mem_keyword_mul h]
  cases hexport : afterWord? "export".toList s with
  | none => simp
  | some rest =>
    -- a line that starts with `export` does not start with a keyword
    have hnot : s ∉ keyword * gap * L := by
      intro hs
      have hkeyword := startsIn_keyword_mul s hs
      rw [head?_of_afterWord? (by decide) hexport] at hkeyword
      cases hkeyword
    simp [hnot]

/-! ## One name for each line -/

/-- What stands behind a word and blanks is no mark behind a name. -/
theorem not_mem_word_gap_mul {name : Text} {w : String} (hL : StartsIn isMark L)
    (hs : s ∈ named name * (blankRun * L))
    (hw : takeIdentifier? w.toList = some (w.toList, [])) (hK : StartsIn isIdentifierStart K) :
    s ∉ word w * gap * K := by
  rw [mul_assoc, Language.mem_mul]
  rintro ⟨a, rfl, b, hb, rfl⟩
  obtain ⟨pad, ⟨hne, hpad⟩, rest, hrest, rfl⟩ := Language.mem_mul.1 hb
  obtain ⟨c, pad, rfl⟩ := List.exists_cons_of_ne_nil hne
  have hc : isIdentifierChar c = false := isIdentifierChar_of_isBlank (hpad c List.mem_cons_self)
  obtain ⟨behind, htake, hbehind⟩ := (mem_named_mul (startsIn_blankRun_mul hL)).1 hs
  rw [List.cons_append, takeIdentifier?_append_of_not hw hc] at htake
  obtain ⟨-, rfl⟩ : w.toList = name ∧ c :: (pad ++ rest) = behind := by simpa using htake
  have hmark := (mem_blankRun_mul hL.of_isMark).1 hbehind
  rw [← List.cons_append, trimStart_append_of_blank hpad] at hmark
  have hstart := hK rest hrest
  cases rest with
  | nil => cases hstart
  | cons d rest =>
    have hd : isIdentifierStart d = true := hstart
    have hblank := isBlank_of_isIdentifierChar (isIdentifierChar_of_isIdentifierStart hd)
    rw [trimStart, List.dropWhile_cons, hblank] at hmark
    have hother : isMark d = true := hL _ hmark
    rw [isMark, Bool.or_eq_true, beq_iff_eq, beq_iff_eq] at hother
    rcases hother with rfl | rfl <;> cases hd

/-- A name that stands behind nothing is not one behind a declarator. -/
theorem not_mem_declarator_mul {name : Text} (hL : StartsIn isMark L)
    (hs : s ∈ named name * (blankRun * L)) (hK : StartsIn isIdentifierStart K) :
    s ∉ declarator * K := by
  have hkeyword : StartsIn isIdentifierStart (keyword * gap * K) :=
    startsIn_keyword_mul.mono fun _ => isIdentifierStart_of_startsKeyword
  rw [declarator_mul, mem_maybe_mul, not_or]
  refine ⟨?_, not_mem_word_gap_mul hL hs (by decide) hkeyword⟩
  rw [keyword, add_mul, add_mul, add_mul, add_mul]
  rintro ((hword | hword) | hword)
  · exact not_mem_word_gap_mul hL hs (by decide) hK hword
  · exact not_mem_word_gap_mul hL hs (by decide) hK hword
  · exact not_mem_word_gap_mul hL hs (by decide) hK hword

theorem startsIn_named {name : Text} : StartsIn isIdentifierStart (named name * L) := by
  refine StartsIn.mul ?_ L
  rintro s ⟨rfl, c, t, rfl, hc, -⟩
  exact hc

def behindDeclarator (line : Text) : Text :=
  ((afterDeclarator? line).filter fun rest => rest.head?.any isIdentifierStart).getD line

/-- However a line is read, its name is the identifier behind the declarator. -/
theorem takeIdentifier?_behindDeclarator {name : Text} (hL : StartsIn isMark L)
    (hs : s ∈ maybe declarator * (named name * (blankRun * L))) :
    ∃ rest, takeIdentifier? (behindDeclarator s) = some (name, rest) ∧ rest ∈ blankRun * L := by
  rw [← mem_named_mul (startsIn_blankRun_mul hL), behindDeclarator]
  rcases mem_maybe_mul.1 hs with hplain | hdeclared
  · cases hbehind : (afterDeclarator? s).filter fun rest => rest.head?.any isIdentifierStart with
    | none => exact hplain
    | some rest =>
      rw [Option.filter_eq_some_iff] at hbehind
      have hrest : StartsIn isIdentifierStart ({rest} : TextClass) := by
        rintro t rfl
        exact hbehind.2
      have hdeclared : s ∈ declarator * {rest} :=
        (mem_declarator_mul hrest.of_isIdentifierStart).2 ⟨rest, hbehind.1, rfl⟩
      exact absurd hdeclared (not_mem_declarator_mul hL hplain hrest)
  · obtain ⟨rest, hafter, hrest⟩ :=
      (mem_declarator_mul startsIn_named.of_isIdentifierStart).1 hdeclared
    have hkept : (afterDeclarator? s).filter (fun rest => rest.head?.any isIdentifierStart) =
        some rest := Option.filter_eq_some_iff.2 ⟨hafter, startsIn_named rest hrest⟩
    rwa [hkept]

theorem arrowName?_eq_some_iff {name : Text} : arrowName? s = some name ↔ s ∈ assignment name := by
  rw [arrowName?, Option.or_eq_some_iff, Option.bind_eq_some_iff, assignment, mul_assoc,
    mem_maybe_mul, mem_declarator_mul startsIn_named.of_isIdentifierStart]
  simp only [assignedName?_eq_some_iff]
  constructor
  · rintro (hdeclared | ⟨-, hplain⟩)
    · exact Or.inr hdeclared
    · exact Or.inl hplain
  · rintro (hplain | hdeclared)
    · refine Or.inr ⟨?_, hplain⟩
      -- what stands behind a declarator assigns nothing then
      rw [Option.eq_none_iff_forall_ne_some]
      intro other hother
      obtain ⟨rest, hafter, hrest⟩ := Option.bind_eq_some_iff.1 hother
      rw [assignmentRest_eq] at hplain
      exact not_mem_declarator_mul startsIn_assignmentMark hplain startsIn_named
        ((mem_declarator_mul startsIn_named.of_isIdentifierStart).2
          ⟨rest, hafter, assignedName?_eq_some_iff.1 hrest⟩)
    · exact Or.inl hdeclared

/-- The name of a header is the identifier behind the declarator, and what follows is the rest of
one of the two shapes. -/
theorem takeIdentifier?_of_mem_scriptHeader {name : Text} (h : s ∈ scriptHeader name) :
    ∃ rest, takeIdentifier? (behindDeclarator s) = some (name, rest)
      ∧ rest ∈ assignmentRest + memberRest := by
  rcases h with hassignment | hmember
  · rw [assignment, assignmentRest_eq, mul_assoc] at hassignment
    obtain ⟨rest, htake, hrest⟩ :=
      takeIdentifier?_behindDeclarator startsIn_assignmentMark hassignment
    rw [← assignmentRest_eq] at hrest
    exact ⟨rest, htake, Or.inl hrest⟩
  · rw [member, memberRest_eq] at hmember
    obtain ⟨rest, htake, hrest⟩ :=
      takeIdentifier?_behindDeclarator startsIn_memberMark (mem_maybe_mul.2 (Or.inl hmember))
    rw [← memberRest_eq] at hrest
    exact ⟨rest, htake, Or.inr hrest⟩

theorem scriptHeader_unique {name name' : Text} (h : s ∈ scriptHeader name)
    (h' : s ∈ scriptHeader name') : name = name' := by
  obtain ⟨rest, htake, -⟩ := takeIdentifier?_of_mem_scriptHeader h
  obtain ⟨rest', htake', -⟩ := takeIdentifier?_of_mem_scriptHeader h'
  rw [htake] at htake'
  exact congrArg Prod.fst (Option.some.inj htake')

theorem scriptName?_eq_some_iff {name : Text} (h : bracedName? s = none) :
    scriptName? s = some name ↔ name.length < nameLimit ∧ s ∈ scriptHeader name := by
  have hacceptable : s ∈ scriptHeader name →
      (isAcceptableName name = true ↔ name.length < nameLimit) := by
    intro hs
    obtain ⟨rest, htake, -⟩ := takeIdentifier?_of_mem_scriptHeader hs
    simp [isAcceptableName, (mem_takeIdentifier? htake).1]
  rw [scriptName?, h, Option.none_or, Option.or_eq_some_iff, Option.filter_eq_some_iff,
    Option.filter_eq_some_iff, arrowName?_eq_some_iff, memberName?_eq_some_iff]
  constructor
  · rintro (⟨hassignment, haccept⟩ | ⟨-, hmember, haccept⟩)
    · exact ⟨(hacceptable (Or.inl hassignment)).1 haccept, Or.inl hassignment⟩
    · exact ⟨(hacceptable (Or.inr hmember)).1 haccept, Or.inr hmember⟩
  · rintro ⟨hlength, hs⟩
    have haccept := (hacceptable hs).2 hlength
    cases harrow : (arrowName? s).filter isAcceptableName with
    | none =>
      rcases hs with hassignment | hmember
      · rw [arrowName?_eq_some_iff.2 hassignment] at harrow
        simp [haccept] at harrow
      · exact Or.inr ⟨rfl, hmember, haccept⟩
    | some other =>
      have hother := arrowName?_eq_some_iff.1 (Option.filter_eq_some_iff.1 harrow).1
      rw [scriptHeader_unique hs (Or.inl hother)]
      exact Or.inl ⟨hother, (Option.filter_eq_some_iff.1 harrow).2⟩

/-! ## Assignments of anything else -/

def HoldsOnly (p : Char → Bool) (K : TextClass) : Prop := ∀ s ∈ K, ∀ c ∈ s, p c = true

theorem HoldsOnly.mul {p : Char → Bool} (hK : HoldsOnly p K) (hL : HoldsOnly p L) :
    HoldsOnly p (K * L) := by
  intro s hs
  obtain ⟨a, ha, b, hb, rfl⟩ := Language.mem_mul.1 hs
  exact List.forall_mem_append.2 ⟨hK a ha, hL b hb⟩

theorem HoldsOnly.add {p : Char → Bool} (hK : HoldsOnly p K) (hL : HoldsOnly p L) :
    HoldsOnly p (K + L) := by
  rintro s (hs | hs)
  · exact hK s hs
  · exact hL s hs

theorem HoldsOnly.maybe {p : Char → Bool} (hK : HoldsOnly p K) : HoldsOnly p (maybe K) := by
  refine HoldsOnly.add ?_ hK
  rintro s rfl c ⟨⟩

def isPlain (c : Char) : Bool := isBlank c || isIdentifierChar c

theorem holdsOnly_blankRun : HoldsOnly isPlain blankRun := fun s hs c hc => by
  simp [isPlain, hs c hc]

theorem holdsOnly_named {name : Text} : HoldsOnly isPlain (named name) := by
  rintro s ⟨rfl, hname⟩ c hc
  simp [isPlain, isIdentifierChar_of_mem_identifier hname c hc]

theorem holdsOnly_word {w : String} (h : w.toList.all isPlain = true) :
    HoldsOnly isPlain (word w) := by
  rintro s rfl
  exact List.all_eq_true.1 h

theorem holdsOnly_declarator : HoldsOnly isPlain declarator := by
  have hgap : HoldsOnly isPlain gap := fun s hs => holdsOnly_blankRun s hs.2
  have hkeyword : HoldsOnly isPlain keyword :=
    ((holdsOnly_word (by decide)).add (holdsOnly_word (by decide))).add (holdsOnly_word (by decide))
  exact (((holdsOnly_word (by decide)).mul hgap).maybe.mul hkeyword).mul hgap

/-- A line that assigns something declares no braced function. -/
theorem bracedName?_eq_none_of_assignment {name : Text}
    (hs : s ∈ maybe declarator * named name * blankRun * (word "=" * L)) :
    bracedName? s = none := by
  have hhead : s.head?.any isIdentifierStart = true := by
    rw [mul_assoc, mul_assoc, mem_maybe_mul] at hs
    exact hs.elim (startsIn_named s) (startsIn_declarator_mul s)
  obtain ⟨front, hfront, rest, hrest, rfl⟩ := Language.mem_mul.1 hs
  have hplain := ((holdsOnly_declarator.maybe.mul holdsOnly_named).mul holdsOnly_blankRun) _ hfront
  have hopen : '(' ∉ front := fun h => by cases hplain _ h
  obtain ⟨a, rfl, value, -, rfl⟩ := Language.mem_mul.1 hrest
  have hbehind :
      behindClosing (front ++ ("=".toList ++ value)) = front ++ ("=".toList ++ value) := by
    refine behindClosing_of_head fun c hc => ?_
    rw [hc] at hhead
    refine ⟨?_, isBlank_of_isIdentifierChar (isIdentifierChar_of_isIdentifierStart hhead)⟩
    rintro rfl
    cases hhead
  rw [Option.eq_none_iff_forall_ne_some]
  intro other hother
  obtain ⟨-, -, -, hequals, -, -⟩ := bracedName?_eq_some_iff.1 hother
  rw [hbehind, upTo_append hopen] at hequals
  exact hequals (by simp [upTo])

/-- A line that assigns something else than an arrow function is no header. -/
theorem not_mem_scriptHeader_of_assignment {name value : Text} (hvalue : value ∉ assignedValue)
    (hs : s ∈ maybe declarator * (named name * (blankRun * (word "=" * {value})))) (other : Text) :
    s ∉ scriptHeader other := by
  intro hother
  have hmark : StartsIn isMark (word "=" * {value}) := (startsIn_word rfl).mul _
  obtain ⟨rest, htake, hrest⟩ := takeIdentifier?_behindDeclarator hmark hs
  obtain ⟨rest', htake', hrest'⟩ := takeIdentifier?_of_mem_scriptHeader hother
  rw [htake] at htake'
  obtain rfl : rest = rest' := congrArg Prod.snd (Option.some.inj htake')
  obtain ⟨a, rfl, b, rfl, htrim⟩ := Language.mem_mul.1 ((mem_blankRun_mul hmark.of_isMark).1 hrest)
  have hequals : trimStart rest = '=' :: b := htrim.symm
  rcases hrest' with hassignment | hmember
  · obtain ⟨found, hfound, harrow⟩ := mem_assignmentRest_iff.1 hassignment
    rw [hequals] at hfound
    obtain rfl : b = found := Option.some.inj hfound
    exact hvalue (mem_assignedValue_iff.2 harrow)
  · obtain ⟨found, hfound, -⟩ := mem_memberRest_iff.1 hmember
    rw [hequals] at hfound
    cases hfound

end

/-- A line that declares a braced function gives its name.  Any other line gives a name just when it
is a header of that name in one of the two shapes and the name is short enough, and it is a header
of one name at most, however it is read.  A line that assigns what does not begin with an arrow
function gives none. -/
theorem scriptName?_grammar (line : Text) :
    (∀ name, bracedName? line = some name → scriptName? line = some name)
      ∧ (bracedName? line = none → ∀ name,
          scriptName? line = some name ↔ name.length < 100 ∧ line ∈ scriptHeader name)
      ∧ (∀ name name', line ∈ scriptHeader name → line ∈ scriptHeader name' → name = name')
      ∧ ∀ name value, line ∈ maybe declarator * named name * blankRun * word "=" * {value} →
          value ∉ assignedValue → scriptName? line = none := by
  refine ⟨?_, ?_, ?_, ?_⟩
  · intro name hbraced
    rw [scriptName?, hbraced, Option.some_or]
  · intro hnone name
    exact scriptName?_eq_some_iff hnone
  · intro name name' h h'
    exact scriptHeader_unique h h'
  · intro name value hline hvalue
    rw [mul_assoc] at hline
    rw [Option.eq_none_iff_forall_ne_some]
    intro other hother
    rw [scriptName?_eq_some_iff (bracedName?_eq_none_of_assignment hline)] at hother
    rw [mul_assoc, mul_assoc] at hline
    exact not_mem_scriptHeader_of_assignment hvalue hline other hother.2

/-- A braced function whose name is a keyword; an exported arrow function with a type, whose name is
the word in front of it and the name of its parameter; and a call with an arrow behind a type. -/
theorem scriptName?_grammar_keywords :
    bracedName? "const(x) \x7b".toList = some "const".toList
      ∧ scriptName? "const(x) \x7b".toList = some "const".toList
      ∧ "export const async: T = async async => 1".toList ∈ scriptHeader "async".toList
      ∧ (∀ name, "export const async: T = async async => 1".toList ∈ scriptHeader name →
          name = "async".toList)
      ∧ " items.filter(y => y)".toList ∉ assignedValue
      ∧ scriptName? "let let = items.filter(y => y)".toList = none := by
  obtain ⟨hbraced, -, -, -⟩ := scriptName?_grammar "const(x) \x7b".toList
  obtain ⟨-, hheader, honce, -⟩ :=
    scriptName?_grammar "export const async: T = async async => 1".toList
  obtain ⟨-, -, -, hassigned⟩ := scriptName?_grammar "let let = items.filter(y => y)".toList
  have hconst : bracedName? "const(x) \x7b".toList = some "const".toList := by decide +kernel
  have hasync : "export const async: T = async async => 1".toList ∈ scriptHeader "async".toList :=
    ((hheader (by decide +kernel) "async".toList).1 (by decide +kernel)).2
  have hvalue : " items.filter(y => y)".toList ∉ assignedValue := by
    rw [mem_assignedValue_iff]
    decide +kernel
  refine ⟨hconst, hbraced _ hconst, hasync, fun name h => honce _ _ h hasync, hvalue, ?_⟩
  refine hassigned "let".toList _ ?_ hvalue
  have hmark : StartsIn isMark (word "=" * {" items.filter(y => y)".toList}) :=
    (startsIn_word rfl).mul _
  rw [mul_assoc, mul_assoc, mul_assoc, mem_maybe_mul,
    mem_declarator_mul startsIn_named.of_isIdentifierStart]
  refine Or.inr ⟨"let = items.filter(y => y)".toList, by decide +kernel, ?_⟩
  refine (mem_named_mul (startsIn_blankRun_mul hmark)).2
    ⟨" = items.filter(y => y)".toList, by decide +kernel, ?_⟩
  exact (mem_blankRun_mul hmark.of_isMark).2 (mem_word_mul.2 ⟨_, by decide +kernel, rfl⟩)

end GrowthEstimate.Header
