import GrowthEstimate.Text

/-!
# Code points and code units

A character up to U+FFFF is one unit of 16 bits; any other character is a pair of units, a high
half and a low half.  No character is half a pair, but a string that comes from outside can hold a
half without the other one.  So such a string is a run of code points, each of them a character or
a half, and it is a text when all of them are characters.

* `text?_ofText`, `ofText_of_text?`: the text that a string is, when it is one;
* `withHalves_ofText`, `ofText_withHalves`: a text has no halves for which another character could
  stand;
* `join_char`: the units of a character, taken from the last one, are joined to it again.
-/

namespace GrowthEstimate

namespace Text

def isHighHalf (unit : Nat) : Bool := 0xD800 ≤ unit && unit ≤ 0xDBFF

def isLowHalf (unit : Nat) : Bool := 0xDC00 ≤ unit && unit ≤ 0xDFFF

/-- The characters of a single unit are below this code point. -/
def pairStart : Nat := 0x10000

def units (c : Char) : List Nat :=
  let n := c.toNat
  if n < pairStart then [n]
  else [0xD800 + (n - pairStart) / 0x400, 0xDC00 + (n - pairStart) % 0x400]

def ofPair (high low : Nat) : Char :=
  Char.ofNat (pairStart + (high - 0xD800) * 0x400 + (low - 0xDC00))

theorem toNat_not_half (c : Char) :
    isHighHalf c.toNat = false ∧ isLowHalf c.toNat = false := by
  have hc : c.toNat < 0xD800 ∨ 0xDFFF < c.toNat ∧ c.toNat < 0x110000 := c.valid
  simp only [isHighHalf, isLowHalf, Bool.and_eq_false_iff, decide_eq_false_iff_not]
  omega

end Text

open Text (isHighHalf isLowHalf pairStart units ofPair)

inductive CodePoint
  | char (c : Char)
  /-- A half without the other one. -/
  | half (unit : Nat) (range : 0xD800 ≤ unit ∧ unit ≤ 0xDFFF)
  deriving DecidableEq

namespace CodePoint

def ofNat (n : Nat) : CodePoint :=
  if h : 0xD800 ≤ n ∧ n ≤ 0xDFFF then .half n h else .char (Char.ofNat n)

def toNat : CodePoint → Nat
  | char c => c.toNat
  | half unit _ => unit

def char? : CodePoint → Option Char
  | char c => some c
  | half _ _ => none

def isHalf (p : CodePoint) : Bool := p.char?.isNone

def isBlank (p : CodePoint) : Bool := p.char?.any Text.isBlank

/-- The character, or `mark` for a half. -/
def withMark (mark : Char) (p : CodePoint) : Char := p.char?.getD mark

theorem ofNat_toNat_char (c : Char) : ofNat c.toNat = .char c := by
  have hc : c.toNat < 0xD800 ∨ 0xDFFF < c.toNat ∧ c.toNat < 0x110000 := c.valid
  rw [ofNat, dif_neg (by omega), Char.ofNat_toNat]

theorem ofNat_toNat (p : CodePoint) : ofNat p.toNat = p := by
  cases p with
  | char c => exact ofNat_toNat_char c
  | half unit range => exact dif_pos range

theorem toNat_lt (p : CodePoint) : p.toNat < 0x110000 := by
  cases p with
  | char c =>
    have hc : c.toNat < 0xD800 ∨ 0xDFFF < c.toNat ∧ c.toNat < 0x110000 := c.valid
    rw [toNat]
    omega
  | half unit range =>
    rw [toNat]
    omega

end CodePoint

/-- A string that may hold halves: its code points, in order. -/
abbrev CodePoints := List CodePoint

namespace CodePoints

def ofText (s : Text) : CodePoints := s.map .char

/-- The text that a string is; none when it holds a half. -/
def text? (s : CodePoints) : Option Text := s.mapM CodePoint.char?

def hasHalf (s : CodePoints) : Bool := s.any CodePoint.isHalf

def trim (s : CodePoints) : CodePoints :=
  ((s.dropWhile CodePoint.isBlank).reverse.dropWhile CodePoint.isBlank).reverse

/-- The string as a text, in which `mark` stands for every half. -/
def withHalves (mark : Char) (s : CodePoints) : Text := s.map (CodePoint.withMark mark)

@[simp] theorem text?_ofText (s : Text) : (ofText s).text? = some s := by
  induction s with
  | nil => rfl
  | cons c s ih =>
    have hs : List.mapM CodePoint.char? (List.map CodePoint.char s) = some s := ih
    simp [ofText, text?, CodePoint.char?, hs]

theorem ofText_of_text? {s : CodePoints} {t : Text} (h : s.text? = some t) : ofText t = s := by
  induction s generalizing t with
  | nil =>
    cases h
    rfl
  | cons p s ih =>
    rw [text?, List.mapM_cons] at h
    obtain ⟨c, hc, h⟩ := Option.bind_eq_some_iff.1 h
    obtain ⟨rest, hrest, h⟩ := Option.bind_eq_some_iff.1 h
    cases h
    cases p with
    | char d =>
      cases hc
      exact congrArg _ (ih hrest)
    | half => cases hc

@[simp] theorem hasHalf_ofText (s : Text) : (ofText s).hasHalf = false := by
  simp [ofText, hasHalf, CodePoint.isHalf, CodePoint.char?]

@[simp] theorem withHalves_ofText (mark : Char) (s : Text) : (ofText s).withHalves mark = s := by
  induction s with
  | nil => rfl
  | cons c s ih => exact congrArg (c :: ·) ih

theorem ofText_withHalves {s : CodePoints} (h : s.hasHalf = false) (mark : Char) :
    ofText (s.withHalves mark) = s := by
  induction s with
  | nil => rfl
  | cons p s ih =>
    rw [hasHalf, List.any_cons, Bool.or_eq_false_iff] at h
    cases p with
    | char c => exact congrArg (CodePoint.char c :: ·) (ih h.2)
    | half => cases h.1

@[simp] theorem length_withHalves (mark : Char) (s : CodePoints) :
    (s.withHalves mark).length = s.length := List.length_map _

/-! ## A character for the halves -/

/-- The first character from `n` on that is not in the string; at most `count` are passed over. -/
def freshFrom (s : CodePoints) : (count n : Nat) → Char
  | 0, n => Char.ofNat n
  | count + 1, n =>
    if s.contains (.char (Char.ofNat n)) then freshFrom s count (n + 1) else Char.ofNat n

/-- The code points from here to U+DFFFF are no assigned characters. -/
def unassignedStart : Nat := 0x40000

/-- A character that is not in the string and belongs to no class of characters, as a half does
not.  In a text with this character for every half, only a name that holds it is not the name that
is in the string. -/
def standIn (s : CodePoints) : Char := freshFrom s s.length unassignedStart

/-! ## Joining units -/

inductive Piece
  | point (p : CodePoint)
  /-- A unit, which may be half of a pair with the unit next to it. -/
  | unit (n : Nat)

/-- The string that pieces spell in front of `done`, the last piece first. -/
def join : List Piece → CodePoints → CodePoints
  | [], done => done
  | .point p :: rest, done => join rest (p :: done)
  | .unit low :: .unit high :: rest, done =>
    if isLowHalf low && isHighHalf high then join rest (.char (ofPair high low) :: done)
    else join (.unit high :: rest) (.ofNat low :: done)
  | .unit n :: rest, done => join rest (.ofNat n :: done)

theorem join_single (c : Char) (rest : List Piece) (done : CodePoints) :
    join (.unit c.toNat :: rest) done = join rest (.char c :: done) := by
  have ⟨_, low⟩ := Text.toNat_not_half c
  cases rest with
  | nil => simp [join, CodePoint.ofNat_toNat_char]
  | cons piece rest => cases piece <;> simp [join, low, CodePoint.ofNat_toNat_char]

theorem join_pair {high low : Nat} (hh : isHighHalf high = true) (hl : isLowHalf low = true)
    (rest : List Piece) (done : CodePoints) :
    join (.unit low :: .unit high :: rest) done = join rest (.char (ofPair high low) :: done) := by
  simp [join, hh, hl]

/-- The two halves of a character beyond U+FFFF make it up again. -/
theorem join_char (c : Char) (rest : List Piece) (done : CodePoints) :
    join (((units c).map .unit).reverse ++ rest) done = join rest (.char c :: done) := by
  by_cases h : c.toNat < pairStart
  · simpa [units, h] using join_single c rest done
  · have hc : c.toNat < 0xD800 ∨ 0xDFFF < c.toNat ∧ c.toNat < 0x110000 := c.valid
    have hp : pairStart = 0x10000 := rfl
    have joined : ofPair (0xD800 + (c.toNat - pairStart) / 0x400)
        (0xDC00 + (c.toNat - pairStart) % 0x400) = c := by
      have n : pairStart + (0xD800 + (c.toNat - pairStart) / 0x400 - 0xD800) * 0x400
          + (0xDC00 + (c.toNat - pairStart) % 0x400 - 0xDC00) = c.toNat := by omega
      rw [ofPair, n, Char.ofNat_toNat]
    have high : isHighHalf (0xD800 + (c.toNat - pairStart) / 0x400) = true := by
      simp only [isHighHalf, Bool.and_eq_true, decide_eq_true_eq]
      omega
    have low : isLowHalf (0xDC00 + (c.toNat - pairStart) % 0x400) = true := by
      simp only [isLowHalf, Bool.and_eq_true, decide_eq_true_eq]
      omega
    simpa [units, h, joined] using join_pair high low rest done

end CodePoints

end GrowthEstimate
