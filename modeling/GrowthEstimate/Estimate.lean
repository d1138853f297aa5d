import GrowthEstimate.Body.Signals
import GrowthEstimate.Decimal

/-!
# The estimate of one function

An estimate is a growth class, a confidence and the notes that explain both.  It is built from the
signals in a fixed order: builtins, loops, recursion, dynamic programming, sorting, factorial.
Classes are joined, with one exception: a binary search inside a single loop replaces the class.
The confidence is set by loops, recursion and factorial, and capped by dynamic programming.
-/

namespace GrowthEstimate

inductive Note
  | unreadableBody
  | builtin (name : Text)
  | neitherLoopNorCall
  | oneLoop
  | binarySearch
  | twoLoops
  | threeLoops
  | deepLoops (depth : Nat)
  | tailRecursion
  | divideAndConquer
  | fibonacciLike
  | severalCalls
  | oneCall
  | dynamicProgramming
  | sorting
  | factorial
  deriving DecidableEq

def Note.text : Note → Text
  | unreadableBody => "Unable to analyze function body".toList
  | builtin name => "Built-in function '".toList ++ name ++ "' detected".toList
  | neitherLoopNorCall => "No loops or recursion detected".toList
  | oneLoop => "Single loop detected".toList
  | binarySearch => "Binary search pattern overrides linear complexity".toList
  | twoLoops => "Nested loops detected (depth: 2)".toList
  | threeLoops => "Triple nested loops detected (depth: 3)".toList
  | deepLoops depth =>
    "Deeply nested loops detected (depth: ".toList ++ Decimal.ofNat depth ++ ")".toList
  | tailRecursion => "Tail recursion detected".toList
  | divideAndConquer => "Divide and conquer recursion detected".toList
  | fibonacciLike => "Exponential recursion (fibonacci-like) detected".toList
  | severalCalls => "Multiple recursive calls detected".toList
  | oneCall => "Simple recursion detected".toList
  | dynamicProgramming => "Dynamic programming pattern detected - may reduce complexity".toList
  | sorting => "Sorting operation detected".toList
  | factorial => "Factorial complexity pattern detected".toList

structure Estimate where
  growth : Growth
  confidence : Float
  notes : List Note

namespace Estimate

def initial : Estimate := ⟨.constant, 0.9, []⟩

def unreadable : Estimate := { initial with notes := [.unreadableBody] }

/-- The worse of the class so far and `growth`, at the same confidence. -/
def joined (e : Estimate) (growth : Growth) (note : Note) : Estimate :=
  { e with growth := e.growth.join growth, notes := e.notes ++ [note] }

/-- The worse of the class so far and `growth`, at a confidence of its own. -/
def judged (e : Estimate) (growth : Growth) (confidence : Float) (note : Note) : Estimate :=
  { e.joined growth note with confidence := confidence }

/-- Every builtin that occurs is joined in. -/
def withBuiltins (builtins : List Builtin) (e : Estimate) : Estimate :=
  builtins.foldl (fun e b => e.joined b.growth (.builtin b.name)) e

/-- The class of the loop depth is joined in; a binary search in a single loop replaces the class
with the logarithmic one. -/
def withLoops (s : Signals) (e : Estimate) : Estimate :=
  match s.loopDepth with
  | 0 => if s.selfCalls = 0 then { e with notes := e.notes ++ [.neitherLoopNorCall] } else e
  | 1 =>
    let e := e.joined .linear .oneLoop
    if s.binarySearch then ⟨.logarithmic, 0.9, e.notes ++ [.binarySearch]⟩ else e
  | 2 => e.judged .quadratic 0.85 .twoLoops
  | 3 => e.judged .cubic 0.85 .threeLoops
  | depth => e.judged .polynomial 0.7 (.deepLoops depth)

/-- The class of the recursion is joined in, when there is a self-call. -/
def withRecursion (s : Signals) (e : Estimate) : Estimate :=
  if s.selfCalls = 0 then e
  else if s.tailRecursive then e.judged .linear 0.8 .tailRecursion
  else if s.divideAndConquer then e.judged .linearithmic 0.85 .divideAndConquer
  else if 1 < s.selfCalls then
    if s.fibonacciLike then e.judged .exponential 0.9 .fibonacciLike
    else e.judged .exponential 0.7 .severalCalls
  else e.judged .linear 0.7 .oneCall

/-- Dynamic programming leaves the class alone and caps the confidence. -/
def withDynamicProgramming (s : Signals) (e : Estimate) : Estimate :=
  if s.dynamicProgramming then
    { e with
      confidence := if (0.6 : Float) < e.confidence then 0.6 else e.confidence
      notes := e.notes ++ [.dynamicProgramming] }
  else e

def withSorting (s : Signals) (e : Estimate) : Estimate :=
  if s.sorting then e.joined .linearithmic .sorting else e

def withFactorial (s : Signals) (e : Estimate) : Estimate :=
  if s.factorial then e.judged .factorial 0.8 .factorial else e

def ofSignals (s : Signals) : Estimate :=
  initial |> withBuiltins s.builtins |> withLoops s |> withRecursion s
    |> withDynamicProgramming s |> withSorting s |> withFactorial s

/-- The estimate of a function in a language with the given builtins and family. -/
def ofBody (table : List Builtin) (family : Family) (name body : Text) : Estimate :=
  ofSignals (Signals.ofBody table family name body)

end Estimate

end GrowthEstimate
