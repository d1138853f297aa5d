import GrowthEstimate.Json.Writing
import GrowthEstimate.Proofs.NumeralReading

/-!
# The tokens of a written value

What a value is written as is cut into the tokens of the value again, compact or on lines, with
characters escaped or not.

* `Reads.mark`, `Reads.blanks`, `reads_word`: pieces of a text are read one after the other;
* `spells_escapeChar`, `reads_stringText`: the characters of a string come back from their escapes;
* `reads_bracketed`: containers, from the pieces in them;
* `reads_render`: any value that is plain: its doubles are finite and its strings are texts.
-/

namespace GrowthEstimate.Json

open Lexer
open CodePoints (Piece join)

/-! ## Where a piece of text ends -/

/-- The tokens are complete: what comes next, or the end of the text, adds nothing to them. -/
structure Lexer.Rests (l : Lexer) (tokens : List Token) : Prop where
  step : ∀ c, endsWord c = true → l.step c = start tokens c
  finish : l.finish = tokens.reverse

theorem rests_between (tokens : List Token) : Rests ⟨.between, tokens⟩ tokens :=
  ⟨fun _ _ => rfl, rfl⟩

theorem rests_word (read : Text) (tokens : List Token) :
    Rests ⟨.word read, tokens⟩ (afterWord read tokens) :=
  ⟨fun c hc => by rw [Lexer.step]; simp only [hc, ↓reduceIte], rfl⟩

/-- Reading the text, from between two tokens, gives the tokens. -/
def Reads (s : Text) (found : List Token) : Prop :=
  ∀ tokens, Rests (Lexer.run ⟨.between, tokens⟩ s) (found.reverse ++ tokens)

theorem tokens_of_reads {s : Text} {found : List Token} (h : Reads s found) : tokens s = found := by
  rw [tokens, (h []).finish, List.append_nil, List.reverse_reverse]

theorem run_cons (l : Lexer) (c : Char) (s : Text) : l.run (c :: s) = (l.step c).run s := rfl

theorem start_mark {c : Char} {token : Token} (h : ofMark? c = some token) (tokens : List Token) :
    start tokens c = ⟨.between, token :: tokens⟩ := by
  have hplain : isJsonBlank c = false ∧ (c == '"') = false := by
    unfold ofMark? at h
    split at h
    all_goals first | exact ⟨rfl, rfl⟩ | cases h
  simp [start, hplain, h]

theorem endsWord_mark {c : Char} {token : Token} (h : ofMark? c = some token) :
    endsWord c = true := by
  simp [endsWord, h]

/-- A mark stands between two pieces. -/
theorem Reads.mark {s t : Text} {found found' : List Token} {c : Char} {token : Token}
    (hs : Reads s found) (hc : ofMark? c = some token) (ht : Reads t found') :
    Reads (s ++ c :: t) (found ++ token :: found') := by
  intro tokens
  have hstep := (hs tokens).step c (endsWord_mark hc)
  rw [Lexer.run_append, run_cons, hstep, start_mark hc]
  simpa using ht (token :: (found.reverse ++ tokens))

theorem reads_nil : Reads [] [] := fun tokens => rests_between tokens

theorem Reads.blank {s : Text} {found : List Token} (hs : Reads s found) {c : Char}
    (hc : isJsonBlank c = true) : Reads (c :: s) found := by
  intro tokens
  have hstep : Lexer.step ⟨.between, tokens⟩ c = ⟨.between, tokens⟩ := by
    simp [Lexer.step, start, hc]
  rw [run_cons, hstep]
  exact hs tokens

def IsBlanks (s : Text) : Prop := ∀ c ∈ s, isJsonBlank c = true

theorem Reads.blanks {s pad : Text} {found : List Token} (hs : Reads s found)
    (hpad : IsBlanks pad) : Reads (pad ++ s) found := by
  induction pad with
  | nil => exact hs
  | cons c pad ih =>
    exact (ih fun d hd => hpad d (List.mem_cons_of_mem _ hd)).blank (hpad c List.mem_cons_self)

theorem Reads.append_blanks {s pad : Text} {found : List Token} (hs : Reads s found)
    (hpad : IsBlanks pad) : Reads (s ++ pad) found := by
  cases pad with
  | nil => rwa [List.append_nil]
  | cons c pad =>
    intro tokens
    have hc := hpad c List.mem_cons_self
    have hends : endsWord c = true := by simp [endsWord, hc]
    have hpad' : Reads (pad ++ []) [] :=
      reads_nil.blanks fun d hd => hpad d (List.mem_cons_of_mem _ hd)
    rw [Lexer.run_append, run_cons, (hs tokens).step c hends, start, if_pos hc]
    simpa using hpad' (found.reverse ++ tokens)

/-! ## Words -/

theorem run_word {s : Text} (hs : ∀ c ∈ s, endsWord c = false) (read : Text) (tokens : List Token) :
    Lexer.run ⟨.word read, tokens⟩ s = ⟨.word (s.reverse ++ read), tokens⟩ := by
  induction s generalizing read with
  | nil => rfl
  | cons c s ih =>
    have hstep : Lexer.step ⟨.word read, tokens⟩ c = ⟨.word (c :: read), tokens⟩ := by
      simp [Lexer.step, hs c List.mem_cons_self]
    rw [run_cons, hstep, ih fun d hd => hs d (List.mem_cons_of_mem _ hd)]
    simp

theorem reads_word {s : Text} (hne : s ≠ []) (hs : ∀ c ∈ s, endsWord c = false) :
    Reads s (ofWord s) := by
  obtain ⟨c, s, rfl⟩ := List.exists_cons_of_ne_nil hne
  intro tokens
  have hc := hs c List.mem_cons_self
  simp only [endsWord, Bool.or_eq_false_iff, Option.isSome_eq_false_iff, Option.isNone_iff_eq_none]
    at hc
  have hstep : Lexer.step ⟨.between, tokens⟩ c = ⟨.word [c], tokens⟩ := by
    simp [Lexer.step, start, hc]
  have hrest := rests_word (s.reverse ++ [c]) tokens
  rw [afterWord, List.reverse_append, List.reverse_reverse, List.reverse_singleton,
    List.singleton_append] at hrest
  rw [run_cons, hstep, run_word fun d hd => hs d (List.mem_cons_of_mem _ hd)]
  exact hrest

theorem endsWord_of_isNumeralChar {c : Char} (h : Decimal.IsNumeralChar c) :
    endsWord c = false := by
  have hne : ∀ d : Char, d.isDigit = false ∧ d ∉ ['-', '+', '.', 'e'] → c ≠ d := by
    rintro d ⟨hdigit, hother⟩ rfl
    rcases h with h | h
    · rw [hdigit] at h
      cases h
    · exact hother h
  have hmark : ofMark? c = none := by
    unfold ofMark?
    split
    all_goals first | rfl | exact absurd rfl (hne _ (by decide))
  simp [endsWord, isJsonBlank, hmark, hne ' ' (by decide), hne '\t' (by decide),
    hne '\n' (by decide), hne '\r' (by decide), hne '"' (by decide)]

theorem reads_ofInt (n : ℤ) :
    Reads (Decimal.ofInt n) [.whole (decide (n < 0)) (Decimal.ofNat n.natAbs)] := by
  have hne : Decimal.ofInt n ≠ [] := by
    rw [ofInt_eq]
    exact List.append_ne_nil_of_right_ne_nil _
      (List.append_ne_nil_of_left_ne_nil (Decimal.ofNat_ne_nil _) _)
  have h := reads_word hne fun c hc => endsWord_of_isNumeralChar (isNumeralChar_of_mem_ofInt hc)
  rwa [ofWord_ofInt] at h

theorem reads_floatText (style : Style) {x : Float} (hx : x.isFinite = true) :
    Reads (Decimal.floatText (numberLayout style) x) [.scalar (.float x)] := by
  have hleast : (numberLayout style).leastPoint ≤ 1 := by simp [numberLayout]
  have hgreatest : 1 ≤ (numberLayout style).greatestPoint := by simp [numberLayout]
  have hword := ofWord_floatText hleast hgreatest hx
  have hne : Decimal.floatText (numberLayout style) x ≠ [] := by
    intro hnil
    rw [hnil] at hword
    cases hword
  have h := reads_word hne fun c hc =>
    endsWord_of_isNumeralChar (isNumeralChar_of_mem_floatText hleast hgreatest hx hc)
  rwa [hword] at h

/-! ## Strings -/

/-- A hexadecimal numeral of a fixed length ends with the last digit. -/
theorem padded_succ {k : Nat} (hk : 0 < k) (n : Nat) :
    List.replicate (k + 1 - (Nat.toDigits 16 n).length) '0' ++ Nat.toDigits 16 n =
      List.replicate (k - (Nat.toDigits 16 (n / 16)).length) '0' ++ Nat.toDigits 16 (n / 16)
        ++ [Nat.digitChar (n % 16)] := by
  rcases Nat.lt_or_ge n 16 with h | h
  · obtain ⟨j, rfl⟩ : ∃ j, k = j + 1 := ⟨k - 1, by omega⟩
    have hzero : n / 16 = 0 := by omega
    rw [hzero, Nat.toDigits_zero, Nat.toDigits_of_lt_base h, Nat.mod_eq_of_lt h]
    exact congrArg (· ++ [Nat.digitChar n]) List.replicate_succ'
  · rw [Nat.toDigits_of_base_le (by decide) h, List.length_append, List.length_singleton,
      Nat.add_sub_add_right, List.append_assoc]

theorem unitText_eq {unit : Nat} (h : unit < 0x10000) :
    unitText unit = ['\\', 'u', Nat.digitChar (unit / 16 / 16 / 16),
      Nat.digitChar (unit / 16 / 16 % 16), Nat.digitChar (unit / 16 % 16),
      Nat.digitChar (unit % 16)] := by
  have hfirst : unit / 16 / 16 / 16 < 16 := by omega
  rw [unitText]
  simp only [padded_succ (k := 3) (by decide), padded_succ (k := 2) (by decide),
    padded_succ (k := 1) (by decide), Nat.toDigits_of_lt_base hfirst]
  rfl

theorem ofHexDigit?_digitChar {n : Nat} (h : n < 16) : ofHexDigit? (Nat.digitChar n) = some n := by
  revert n
  decide

/-- An escaped code unit becomes part of the string. -/
theorem run_unitText {unit : Nat} (h : unit < 0x10000) (pieces : List Piece)
    (tokens : List Token) :
    Lexer.run ⟨.string .outside pieces, tokens⟩ (unitText unit) =
      ⟨.string .outside (.unit unit :: pieces), tokens⟩ := by
  have hstep (count value digit : Nat) (hdigit : digit < 16) (pieces : List Piece) :
      Lexer.step ⟨.string (.unit count value) pieces, tokens⟩ (Nat.digitChar digit) =
        if count < 3 then ⟨.string (.unit (count + 1) (16 * value + digit)) pieces, tokens⟩
        else ⟨.string .outside (.unit (16 * value + digit) :: pieces), tokens⟩ := by
    rw [Lexer.step]
    simp only [Escape.isOutside, Bool.false_and, Bool.false_eq_true, ↓reduceIte, Escape.step,
      ofHexDigit?_digitChar hdigit, Option.map_some]
    split <;> rfl
  have hunit : 16 * (16 * (16 * (16 * 0 + unit / 16 / 16 / 16) + unit / 16 / 16 % 16)
      + unit / 16 % 16) + unit % 16 = unit := by omega
  have hbackslash : Lexer.step ⟨.string .outside pieces, tokens⟩ '\\' =
      ⟨.string .backslash pieces, tokens⟩ := rfl
  have hmark : Lexer.step ⟨.string .backslash pieces, tokens⟩ 'u' =
      ⟨.string (.unit 0 0) pieces, tokens⟩ := rfl
  rw [unitText_eq h, run_cons, hbackslash, run_cons, hmark, run_cons, hstep _ _ _ (by omega),
    if_pos (by decide), run_cons, hstep _ _ _ (by omega), if_pos (by decide), run_cons,
    hstep _ _ _ (by omega), if_pos (by decide), run_cons, hstep _ _ _ (by omega),
    if_neg (by decide), hunit]
  rfl

theorem units_lt {c : Char} {unit : Nat} (h : unit ∈ Text.units c) : unit < 0x10000 := by
  have hc : c.toNat < 0xD800 ∨ 0xDFFF < c.toNat ∧ c.toNat < 0x110000 := c.valid
  have hstart : Text.pairStart = 0x10000 := rfl
  rw [Text.units] at h
  split at h
  · rw [List.mem_singleton.1 h]
    omega
  · simp only [List.mem_cons, List.not_mem_nil, or_false] at h
    omega

theorem run_units {added : List Nat} (h : ∀ unit ∈ added, unit < 0x10000) (pieces : List Piece)
    (tokens : List Token) :
    Lexer.run ⟨.string .outside pieces, tokens⟩ (added.flatMap unitText) =
      ⟨.string .outside ((added.map .unit).reverse ++ pieces), tokens⟩ := by
  induction added generalizing pieces with
  | nil => rfl
  | cons unit added ih =>
    rw [List.flatMap_cons, Lexer.run_append, run_unitText (h unit List.mem_cons_self),
      ih fun u hu => h u (List.mem_cons_of_mem _ hu)]
    simp

/-- Inside a string, what is written adds pieces that spell the text. -/
def Spells (written s : Text) : Prop :=
  ∃ added : List Piece,
    (∀ pieces tokens, Lexer.run ⟨.string .outside pieces, tokens⟩ written =
      ⟨.string .outside (added ++ pieces), tokens⟩)
      ∧ ∀ rest done, join (added ++ rest) done = join rest (.ofText s ++ done)

theorem spells_nil : Spells [] [] := ⟨[], fun _ _ => rfl, fun _ _ => rfl⟩

theorem Spells.append {written written' s t : Text} (h : Spells written s)
    (h' : Spells written' t) : Spells (written ++ written') (s ++ t) := by
  obtain ⟨added, hrun, hjoin⟩ := h
  obtain ⟨added', hrun', hjoin'⟩ := h'
  refine ⟨added' ++ added, fun pieces tokens => ?_, fun rest done => ?_⟩
  · rw [Lexer.run_append, hrun, hrun', List.append_assoc]
  · rw [List.append_assoc, hjoin', hjoin]
    simp [CodePoints.ofText]

theorem spells_point {written : Text} {c : Char}
    (h : ∀ pieces tokens, Lexer.run ⟨.string .outside pieces, tokens⟩ written =
      ⟨.string .outside (.point (.char c) :: pieces), tokens⟩) : Spells written [c] :=
  ⟨[.point (.char c)], h, fun _ _ => rfl⟩

/-- Every character becomes part of the string, escaped or not. -/
theorem spells_escapeChar (asciiOnly : Bool) (c : Char) : Spells (escapeChar asciiOnly c) [c] := by
  rw [escapeChar]
  split
  · next h => rw [eq_of_beq h]; exact spells_point fun _ _ => rfl
  split
  · next h => rw [eq_of_beq h]; exact spells_point fun _ _ => rfl
  split
  · next h => rw [eq_of_beq h]; exact spells_point fun _ _ => rfl
  split
  · next h => rw [eq_of_beq h]; exact spells_point fun _ _ => rfl
  split
  · next h => rw [eq_of_beq h]; exact spells_point fun _ _ => rfl
  split
  · next h => rw [eq_of_beq h]; exact spells_point fun _ _ => rfl
  split
  · next h => rw [eq_of_beq h]; exact spells_point fun _ _ => rfl
  split
  · exact ⟨_, run_units fun _ => units_lt, CodePoints.join_char c⟩
  · next hquote hbackslash _ _ _ _ _ hplain =>
    have hcontrol : ¬ c.toNat < 0x20 := fun h => hplain (by simp [h])
    exact spells_point
      (step_string_plain (by simpa using hquote) (by simpa using hbackslash) hcontrol)

theorem reads_stringText (asciiOnly : Bool) (s : Text) :
    Reads (stringText asciiOnly s) [.string (.ofText s)] := by
  have hspells : Spells (s.flatMap (escapeChar asciiOnly)) s := by
    induction s with
    | nil => exact spells_nil
    | cons c s ih => exact (spells_escapeChar asciiOnly c).append ih
  obtain ⟨added, hrun, hjoin⟩ := hspells
  intro tokens
  have hopen : Lexer.step ⟨.between, tokens⟩ '"' = ⟨.string .outside [], tokens⟩ := rfl
  have hclose (pieces : List Piece) : Lexer.step ⟨.string .outside pieces, tokens⟩ '"' =
      ⟨.between, .string (join pieces []) :: tokens⟩ := rfl
  have hread : join (added ++ []) [] = .ofText s := (hjoin [] []).trans (List.append_nil _)
  rw [stringText, List.cons_append, run_cons, hopen, Lexer.run_append, hrun, run_cons, hclose,
    hread]
  exact rests_between _

/-! ## The tokens of a value -/

/-- Pieces with a separator between them are read as their tokens with a mark between them. -/
theorem reads_intercalate {pad : Text} (hpad : IsBlanks pad) {parts : List Text}
    {found : List (List Token)} (h : List.Forall₂ Reads parts found) :
    Reads ((',' :: pad).intercalate parts) ([.comma].intercalate found) := by
  induction h with
  | nil => exact reads_nil
  | @cons part tokens parts found hpart hrest ih =>
    cases hrest with
    | nil => simpa [List.intercalate] using hpart
    | cons _ _ =>
      have hcomma := hpart.mark (c := ',') rfl (ih.blanks hpad)
      simpa [List.intercalate] using hcomma

theorem isBlanks_lineBreak (style : Style) (level : Nat) : IsBlanks (lineBreak style level) := by
  intro c hc
  rw [lineBreak] at hc
  split at hc
  · cases hc
  · rcases List.mem_cons.1 hc with rfl | hc
    · rfl
    · rw [List.eq_of_mem_replicate hc]
      rfl

theorem reads_bracketed {style : Style} {opening closing : Char} {openingToken closingToken : Token}
    (hopening : ofMark? opening = some openingToken)
    (hclosing : ofMark? closing = some closingToken)
    {parts : List Text} {found : List (List Token)} (h : List.Forall₂ Reads parts found)
    (level : Nat) :
    Reads (bracketed style level opening closing parts)
      (openingToken :: [.comma].intercalate found ++ [closingToken]) := by
  have hwrap {inner : Text} {tokens : List Token} (hinner : Reads inner tokens) :
      Reads (opening :: inner ++ [closing]) (openingToken :: tokens ++ [closingToken]) :=
    reads_nil.mark hopening (hinner.mark hclosing reads_nil)
  rw [bracketed]
  cases h with
  | nil => exact hwrap reads_nil
  | cons hpart hrest =>
    have hparts := reads_intercalate (isBlanks_lineBreak style (level + 1)) (.cons hpart hrest)
    have hinner := (hparts.blanks (isBlanks_lineBreak style (level + 1))).append_blanks
      (isBlanks_lineBreak style level)
    simpa using hwrap hinner

mutual

def tokensOf : Json → List Token
  | .null => [.scalar .null]
  | .bool b => [.scalar (.bool b)]
  | .int n => [.whole (decide (n < 0)) (Decimal.ofNat n.natAbs)]
  | .float x => [.scalar (.float x)]
  | .text s => [.string (.ofText s)]
  | .points s => [.string s]
  | .array items => .openArray :: [.comma].intercalate (tokensOfItems items) ++ [.closeArray]
  | .object members =>
    .openObject :: [.comma].intercalate (tokensOfMembers members) ++ [.closeObject]

def tokensOfItems : List Json → List (List Token)
  | [] => []
  | item :: rest => tokensOf item :: tokensOfItems rest

def tokensOfMembers : List (Text × Json) → List (List Token)
  | [] => []
  | (key, value) :: rest =>
    (.string (.ofText key) :: .colon :: tokensOf value) :: tokensOfMembers rest

end

mutual

/-- The doubles in a value are finite and its strings are texts. -/
def IsPlain : Json → Prop
  | .float x => x.isFinite = true
  | .points _ => False
  | .array items => ItemsPlain items
  | .object members => MembersPlain members
  | _ => True

def ItemsPlain : List Json → Prop
  | [] => True
  | item :: rest => IsPlain item ∧ ItemsPlain rest

def MembersPlain : List (Text × Json) → Prop
  | [] => True
  | (_, value) :: rest => IsPlain value ∧ MembersPlain rest

end

variable (style : Style)

mutual

/-- A value is read as its tokens, on whatever level it stands. -/
theorem reads_render (level : Nat) :
    ∀ j : Json, IsPlain j → Reads (render style level j) (tokensOf j)
  | .null, _ => by
    rw [render, tokensOf]
    exact reads_word (List.cons_ne_nil _ _) (by simp [endsWord, isJsonBlank, ofMark?])
  | .bool true, _ => by
    rw [render, tokensOf]
    exact reads_word (List.cons_ne_nil _ _) (by simp [endsWord, isJsonBlank, ofMark?])
  | .bool false, _ => by
    rw [render, tokensOf]
    exact reads_word (List.cons_ne_nil _ _) (by simp [endsWord, isJsonBlank, ofMark?])
  | .int n, _ => by
    rw [render, tokensOf]
    exact reads_ofInt n
  | .float x, hx => by
    rw [render, tokensOf]
    exact reads_floatText style hx
  | .text s, _ => by
    rw [render, tokensOf]
    exact reads_stringText _ s
  | .points _, h => h.elim
  | .array items, h => by
    rw [render, tokensOf]
    exact reads_bracketed rfl rfl (reads_renderItems (level + 1) items h) level
  | .object members, h => by
    rw [render, tokensOf]
    exact reads_bracketed rfl rfl (reads_renderMembers (level + 1) members h) level

theorem reads_renderItems (level : Nat) : ∀ items : List Json, ItemsPlain items →
    List.Forall₂ Reads (renderItems style level items) (tokensOfItems items)
  | [], _ => .nil
  | item :: rest, h =>
    .cons (reads_render level item h.1) (reads_renderItems level rest h.2)

theorem reads_renderMembers (level : Nat) : ∀ members : List (Text × Json), MembersPlain members →
    List.Forall₂ Reads (renderMembers style level members) (tokensOfMembers members)
  | [], _ => .nil
  | (key, value) :: rest, h => by
    refine .cons ?_ (reads_renderMembers level rest h.2)
    have hvalue := reads_render level value h.1
    rw [keySeparator]
    split
    · simpa using (reads_stringText _ key).mark (c := ':') rfl (hvalue.blank (c := ' ') rfl)
    · simpa using (reads_stringText _ key).mark (c := ':') rfl hvalue

end

end GrowthEstimate.Json
