import GrowthEstimate.Body.Halving
import GrowthEstimate.Body.SelfCalls
import GrowthEstimate.Text.Lowercase

/-!
# Idioms

Well-known algorithms betray themselves by the words in their bodies.  Every test here is a plain
substring test, so a word inside a longer one counts: `sort(` is found in `resort(`.
-/

namespace GrowthEstimate.Body

open Text

def middleWords : List Text := ["mid".toList, "middle".toList]

def lowerBoundWords : List Text := ["left".toList, "low".toList, "start".toList]

def upperBoundWords : List Text := ["right".toList, "high".toList, "end".toList]

def sortingWords : List Text :=
  [ "sort(".toList, ".sort(".toList, "sorted(".toList, "quicksort".toList, "mergesort".toList,
    "arrays.sort".toList, "collections.sort".toList ]

def dynamicProgrammingWords : List Text :=
  [ "memo".toList, "cache".toList, "dp[".toList, "table[".toList, "@lru_cache".toList,
    "@cache".toList ]

def lessOneWords : List Text := ["n-1".toList, "n - 1".toList]

def lessTwoWords : List Text := ["n-2".toList, "n - 2".toList]

/-- A middle, both bounds and a halving. -/
def isBinarySearch (body : Text) : Bool :=
  anyOccursIn middleWords body && anyOccursIn lowerBoundWords body
    && anyOccursIn upperBoundWords body && hasHalving body

/-- A sorting word, whatever its case. -/
def isSorting (body : Text) : Bool := anyOccursIn sortingWords (lowercase body)

/-- A table or a cache, whatever the case of the word. -/
def isDynamicProgramming (body : Text) : Bool :=
  anyOccursIn dynamicProgrammingWords (lowercase body)

/-- The word itself, or a product and one less than the size. -/
def isFactorial (body : Text) : Bool :=
  occursIn "factorial".toList body || (body.contains '*' && anyOccursIn lessOneWords body)

/-- A split in the middle or by halving, and a merge. -/
def isDivideAndConquer (body : Text) : Bool :=
  (occursIn "mid".toList body || hasHalving body)
    && (occursIn "merge".toList body || occursIn "combine".toList body)

/-- Two self-calls or more, and both one and two less than the size. -/
def isFibonacciLike (name body : Text) : Bool :=
  2 ≤ countSelfCalls name body && anyOccursIn lessOneWords body && anyOccursIn lessTwoWords body

end GrowthEstimate.Body
