import GrowthEstimate.Text

/-!
# The text behind a parameter list

In a function written on one line the body is whatever stands behind the parameters: behind the
first balanced pair of parentheses, or behind an arrow when that comes before any parenthesis.

* `afterParameters_suffix`: the result is an end piece of the line.
-/

namespace GrowthEstimate.Header

/-- What follows the parenthesis that closes the last of `depth` open ones; nothing when one of
them stays open. -/
def afterClosing : (depth : Nat) → Text → Text
  | _, [] => []
  | depth, c :: s =>
    if c == '(' then afterClosing (depth + 1) s
    else if c == ')' then
      if depth ≤ 1 then s else afterClosing (depth - 1) s
    else afterClosing depth s

/-- What follows the parameters of the function that a line opens; nothing when the line has
neither a parenthesis nor an arrow, or leaves its first parenthesis open. -/
def afterParameters : Text → Text
  | [] => []
  | c :: s =>
    if c == '(' then afterClosing 1 s
    else if c == '=' && s.head? == some '>' then s.tail
    else afterParameters s

theorem afterClosing_suffix (depth : Nat) (s : Text) : afterClosing depth s <:+ s := by
  induction s generalizing depth with
  | nil => exact List.suffix_refl []
  | cons c s ih =>
    rw [afterClosing]
    split
    · exact (ih _).trans (List.suffix_cons c s)
    · split
      · split
        · exact List.suffix_cons c s
        · exact (ih _).trans (List.suffix_cons c s)
      · exact (ih _).trans (List.suffix_cons c s)

theorem afterParameters_suffix (s : Text) : afterParameters s <:+ s := by
  induction s with
  | nil => exact List.suffix_refl []
  | cons c s ih =>
    rw [afterParameters]
    split
    · exact (afterClosing_suffix 1 s).trans (List.suffix_cons c s)
    · split
      · exact (List.tail_suffix s).trans (List.suffix_cons c s)
      · exact ih.trans (List.suffix_cons c s)

end GrowthEstimate.Header
