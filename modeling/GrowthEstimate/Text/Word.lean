import GrowthEstimate.Text.Search
import GrowthEstimate.Text.WordTable

/-!
# Words and identifiers

A word character is an underscore, a letter or a numeric character of any script.  Identifiers
start with an ASCII letter, an underscore or a dollar sign, and go on with word characters and
dollar signs.

* `isWordChar_of_isAlphanum`: every ASCII letter and digit is a word character;
* `takeIdentifier?_append`: an identifier and what follows it make up the text.
-/

namespace GrowthEstimate.Text

def isWordChar (c : Char) : Bool :=
  c.isAlphanum || c == '_' || (0x80 ≤ c.toNat && wordRanges.contain c)

def beginsWithWordChar (s : Text) : Bool := s.head?.any isWordChar

def isIdentifierStart (c : Char) : Bool := c.isAlpha || c == '_' || c == '$'

def isIdentifierChar (c : Char) : Bool := isWordChar c || c == '$'

/-- The longest identifier at the start of a text and what follows it. -/
def takeIdentifier? : Text → Option (Text × Text)
  | [] => none
  | c :: s =>
    if isIdentifierStart c then
      some (c :: s.takeWhile isIdentifierChar, s.dropWhile isIdentifierChar)
    else none

/-- What follows `word` and the blanks behind it, when at least one blank stands there. -/
def afterWord? (word s : Text) : Option Text :=
  match after? word s with
  | some rest => if rest.head?.any isBlank then some (trimStart rest) else none
  | none => none

/-- `s` behind a leading `word` and blanks, or `s` itself when it does not start so. -/
def skipWord (word s : Text) : Text := (afterWord? word s).getD s

theorem isWordChar_of_isAlphanum {c : Char} (h : c.isAlphanum = true) : isWordChar c = true := by
  simp [isWordChar, h]

theorem takeIdentifier?_append {s name rest : Text} (h : takeIdentifier? s = some (name, rest)) :
    name ++ rest = s := by
  cases s with
  | nil => cases h
  | cons c s =>
    rw [takeIdentifier?] at h
    split at h
    · cases h
      simp
    · cases h

end GrowthEstimate.Text
