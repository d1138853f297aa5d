import GrowthEstimate.Body.Idioms
import GrowthEstimate.Body.LoopDepth

/-!
# Signals

Everything that is read off a body before it is judged.  The verdict on a function depends on its
signals alone.
-/

namespace GrowthEstimate

/-- The signals that are kept with a span once its body has been looked at. -/
structure Findings where
  loopDepth : Int
  selfCalls : Int
  binarySearch : Bool
  sorting : Bool
  dynamicProgramming : Bool
  deriving DecidableEq

def Findings.none : Findings := ⟨0, 0, false, false, false⟩

structure Signals where
  /-- The builtin calls that occur, in the order of the language's table. -/
  builtins : List Builtin
  loopDepth : Nat
  selfCalls : Nat
  binarySearch : Bool
  sorting : Bool
  dynamicProgramming : Bool
  factorial : Bool
  divideAndConquer : Bool
  tailRecursive : Bool
  fibonacciLike : Bool
  deriving DecidableEq

namespace Signals

def ofBody (table : List Builtin) (family : Family) (name body : Text) : Signals where
  builtins := table.filter fun b => Text.occursIn b.name body
  loopDepth := Body.loopDepth family body
  selfCalls := Body.countSelfCalls name body
  binarySearch := Body.isBinarySearch body
  sorting := Body.isSorting body
  dynamicProgramming := Body.isDynamicProgramming body
  factorial := Body.isFactorial body
  divideAndConquer := Body.isDivideAndConquer body
  tailRecursive := Body.isTailRecursive name body
  fibonacciLike := Body.isFibonacciLike name body

def findings (s : Signals) : Findings :=
  ⟨s.loopDepth, s.selfCalls, s.binarySearch, s.sorting, s.dynamicProgramming⟩

end Signals

end GrowthEstimate
