import GrowthEstimate.Language
import GrowthEstimate.Text.Lines
import GrowthEstimate.Text.Search

/-!
# Loop nesting

The depth of the loops in a body, read line by line.  A loop that a line starts counts before
anything is closed by the same line.  In braced families each closing brace closes one loop; in
the indentation family a line at column zero closes every loop, its own included.

* `depth_le_deepest_after`: what is open is never deeper than the deepest seen;
* `loopDepth_le`: the depth never exceeds its cap.
-/

namespace GrowthEstimate.Body

open Text

/-- How many lines of a body are searched for loops. -/
def loopScanLines : Nat := 1000

/-- The greatest depth that is told apart. -/
def deepestLoop : Nat := 10

def isSkipped (line : Text) : Bool :=
  line.isEmpty || startsWith "//".toList line || startsWith "#".toList line

def indentedLoopWords : List Text := ["for ".toList, "while ".toList, "async for ".toList]

/-- The words by which a line of any other language starts a loop at its own start. -/
def bracedLoopWords : List Text :=
  ["for ".toList, "for(".toList, "while ".toList, "while(".toList]

/-- The words by which such a line starts a loop anywhere in it. -/
def inlineLoopWords : List Text := ["for (".toList, "while (".toList]

def isLoopStart (family : Family) (line : Text) : Bool :=
  match family with
  | .indentation => indentedLoopWords.any (startsWith · line)
  | .brace | .script | .generic =>
    bracedLoopWords.any (startsWith · line) || anyOccursIn inlineLoopWords line

/-- The loops open behind a line, of `depth` open on it. -/
def openBehind (family : Family) (depth : Nat) (line : Text) : Nat :=
  match family with
  | .indentation => if line.head?.any isBlank then depth else 0
  | .brace | .script | .generic => depth - line.count '}'

/-- The loops that are open at a point of a body and the most that were open up to it. -/
structure Nesting where
  depth : Nat
  deepest : Nat
  deriving DecidableEq

def Nesting.outside : Nesting := ⟨0, 0⟩

def Nesting.after (family : Family) (n : Nesting) (line : Text) : Nesting :=
  if isSkipped (trim line) then n
  else
    let depth := if isLoopStart family (trim line) then n.depth + 1 else n.depth
    ⟨openBehind family depth line, max n.deepest depth⟩

def Nesting.afterLines (family : Family) (n : Nesting) (lines : List Text) : Nesting :=
  lines.foldl (Nesting.after family) n

/-- The greatest number of loops open at once in a body, up to the cap. -/
def loopDepth (family : Family) (body : Text) : Nat :=
  min (Nesting.outside.afterLines family ((splitLines body).take loopScanLines)).deepest deepestLoop

theorem openBehind_le (family : Family) (depth : Nat) (line : Text) :
    openBehind family depth line ≤ depth := by
  cases family <;> simp [openBehind]
  split <;> omega

theorem depth_le_deepest_after (family : Family) {n : Nesting} (h : n.depth ≤ n.deepest)
    (line : Text) : (n.after family line).depth ≤ (n.after family line).deepest := by
  rw [Nesting.after]
  split
  · exact h
  · exact Nat.le_trans (openBehind_le ..) (Nat.le_max_right ..)

theorem loopDepth_le (family : Family) (body : Text) : loopDepth family body ≤ deepestLoop :=
  Nat.min_le_right ..

end GrowthEstimate.Body
