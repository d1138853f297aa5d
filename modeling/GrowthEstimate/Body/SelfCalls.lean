import GrowthEstimate.Text.Lines
import GrowthEstimate.Text.Search

/-!
# Calls of a function in its own body

A self-call is the name with an opening parenthesis directly behind it, wherever it stands: a call
of a longer name that ends in this one counts too.  Names that are empty or very long are not
looked for.

* `countSelfCalls_le`: the count never exceeds its cap.
-/

namespace GrowthEstimate.Body

open Text

/-- The longest name that is looked for. -/
def soughtNameLength : Nat := 50

/-- The greatest count that is told apart. -/
def mostSelfCalls : Nat := 100

/-- How many lines at the end of a body are searched for a tail call. -/
def tailLines : Nat := 10

def isSought (name : Text) : Bool := !name.isEmpty && name.length ≤ soughtNameLength

def callOf (name : Text) : Text := name ++ ['(']

/-- The self-calls of a body, up to the cap. -/
def countSelfCalls (name body : Text) : Nat :=
  if isSought name then min (countOccurrences (callOf name) body) mostSelfCalls else 0

/-- Whether a trimmed line returns and makes exactly one self-call. -/
def isTailCall (name line : Text) : Bool :=
  startsWith "return ".toList line && countOccurrences (callOf name) line == 1

/-- Whether, of the last lines of a body, the last one with a self-call is a tail call. -/
def isTailRecursive (name body : Text) : Bool :=
  let lines := splitLines body
  let last := (lines.drop (lines.length - tailLines)).map trim
  isSought name &&
    (last.reverse.find? fun line => 0 < countOccurrences (callOf name) line).any (isTailCall name)

theorem countSelfCalls_le (name body : Text) : countSelfCalls name body ≤ mostSelfCalls := by
  rw [countSelfCalls]
  split
  · exact Nat.min_le_right ..
  · exact Nat.zero_le _

end GrowthEstimate.Body
