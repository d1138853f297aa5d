import GrowthEstimate.Text.Word

/-!
# Halving

A body halves something where it divides by two or shifts right by one.  Blanks, line ends
included, may stand between the operator and the digit, and the digit must not go on as a longer
number or word.

* `digitFollows_of_blank`: a blank more between operator and digit changes nothing.
-/

namespace GrowthEstimate.Body

open Text

/-- Whether the text, blanks apart, is `digit` and then no word character. -/
def digitFollows (digit : Char) (s : Text) : Bool :=
  match trimStart s with
  | [] => false
  | c :: rest => c == digit && !beginsWithWordChar rest

/-- Whether a halving starts at the first character; `previous` is the character in front. -/
def halvesHere (previous : Option Char) (s : Text) : Bool :=
  (after? "/".toList s).any (digitFollows '2')
    || (after? ">>".toList s).any (digitFollows '1')
    || ((after? "div".toList s).any fun rest =>
          rest.head?.any isBlank && digitFollows '2' rest && !previous.any isWordChar)

/-- Whether a halving starts at some character; `previous` is the character in front of all. -/
def halvesFrom : (previous : Option Char) → Text → Bool
  | _, [] => false
  | previous, c :: s => halvesHere previous (c :: s) || halvesFrom (some c) s

def hasHalving (body : Text) : Bool := halvesFrom none body

theorem digitFollows_of_blank {digit c : Char} (h : isBlank c = true) (s : Text) :
    digitFollows digit (c :: s) = digitFollows digit s := by
  simp [digitFollows, trimStart, h]

end GrowthEstimate.Body
