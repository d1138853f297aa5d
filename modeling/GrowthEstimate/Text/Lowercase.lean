import GrowthEstimate.Text

/-!
# Lower case

Tags, extensions and idiom tokens are ASCII, and a text is lowered only to be compared with them.
So the lower case here has the ASCII letters and the two characters beyond ASCII whose lower case
holds an ASCII letter; it leaves every other character as it stands, none of which can match.

* `lowercase_append`: lowering goes character by character;
* `lowercase_eq_self`: a text without capitals and those two characters is unchanged.
-/

namespace GrowthEstimate.Text

/-- The Kelvin sign lowers to `k`, the dotted capital I to `i` and a combining dot. -/
def lowerChar (c : Char) : Text :=
  if c == '\u212A' then ['k']
  else if c == '\u0130' then ['i', '\u0307']
  else [c.toLower]

def lowercase (s : Text) : Text := s.flatMap lowerChar

/-- Equality of `s`, once lowered, with an ASCII text of small letters. -/
def sameIgnoringCase (s lowered : Text) : Bool := lowercase s == lowered

theorem lowercase_append (s t : Text) : lowercase (s ++ t) = lowercase s ++ lowercase t :=
  List.flatMap_append

theorem lowercase_eq_self {s : Text} (h : ∀ c ∈ s, lowerChar c = [c]) : lowercase s = s := by
  induction s with
  | nil => rfl
  | cons c s ih =>
    have hs : lowercase s = s := ih fun d hd => h d (by simp [hd])
    simpa [lowercase, h c (by simp)] using hs

end GrowthEstimate.Text
