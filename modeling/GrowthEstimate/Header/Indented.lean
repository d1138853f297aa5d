import GrowthEstimate.Text.Word

/-!
# Headers of indented functions

In an indented language a function starts at a line that begins with `def`, after `async` or on
its own.  Its name is what stands in front of the first parenthesis.

* `isIndented_of_indentedName?`: only a header has a name.
-/

namespace GrowthEstimate.Header

open Text

/-- The longest name that a function may have is one character shorter. -/
def nameLimit : Nat := 100

def isAcceptableName (name : Text) : Bool := !name.isEmpty && name.length < nameLimit

/-- What follows the word `def`, when the line is the header of an indented function. -/
def afterDef? (line : Text) : Option Text := afterWord? "def".toList (skipWord "async".toList line)

def isIndented (line : Text) : Bool := (afterDef? line).isSome

/-- The name of the indented function whose header the line is, when it can be read. -/
def indentedName? (line : Text) : Option Text :=
  match afterDef? line with
  | none => none
  | some rest =>
    if rest.contains '(' then
      let name := trim (upTo '(' rest)
      if isAcceptableName name then some name else none
    else none

theorem isIndented_of_indentedName? {line name : Text} (h : indentedName? line = some name) :
    isIndented line = true := by
  rw [indentedName?] at h
  split at h
  · cases h
  · next rest hr => simp [isIndented, hr]

end GrowthEstimate.Header
