import GrowthEstimate.UnknownName

/-!
# Growth classes

Nine classes of asymptotic running time in a total order, and the join, which is the only way in
which two classes are merged: it keeps the worse one.

* `rank_join`: the rank of a join is the greater of the two ranks;
* `rank_injective`: a class is known by its rank, so joins are equal when their ranks are;
* `ofSymbol?_symbol`: reading what is written gives the class back.
-/

namespace GrowthEstimate

inductive Growth
  | constant
  | logarithmic
  | linear
  | linearithmic
  | quadratic
  | cubic
  | polynomial
  | exponential
  | factorial
  deriving DecidableEq

namespace Growth

def ascending : List Growth :=
  [constant, logarithmic, linear, linearithmic, quadratic, cubic, polynomial, exponential,
    factorial]

/-- Every class, the worst first. -/
def descending : List Growth := ascending.reverse

/-- The place in the growth order: 0 for constant time, 8 for factorial time. -/
def rank : Growth → Nat
  | constant => 0
  | logarithmic => 1
  | linear => 2
  | linearithmic => 3
  | quadratic => 4
  | cubic => 5
  | polynomial => 6
  | exponential => 7
  | factorial => 8

/-- The worse of two classes. -/
def join (a b : Growth) : Growth := if b.rank ≤ a.rank then a else b

/-- The worst of the classes; constant when there are none. -/
def joinAll (classes : List Growth) : Growth := classes.foldl join constant

/-! ## Presentation -/

def symbol : Growth → Text
  | constant => "O(1)".toList
  | logarithmic => "O(log n)".toList
  | linear => "O(n)".toList
  | linearithmic => "O(n log n)".toList
  | quadratic => "O(n²)".toList
  | cubic => "O(n³)".toList
  | polynomial => "O(n^k)".toList
  | exponential => "O(2ⁿ)".toList
  | factorial => "O(n!)".toList

def ofSymbol? (s : Text) : Option Growth := ascending.find? fun g => g.symbol == s

def ofSymbol (s : Text) : Except UnknownName Growth :=
  match ofSymbol? s with
  | some g => .ok g
  | none => .error (.growth s)

def label : Growth → Text
  | constant => "CONSTANT".toList
  | logarithmic => "LOGARITHMIC".toList
  | linear => "LINEAR".toList
  | linearithmic => "LINEARITHMIC".toList
  | quadratic => "QUADRATIC".toList
  | cubic => "CUBIC".toList
  | polynomial => "POLYNOMIAL".toList
  | exponential => "EXPONENTIAL".toList
  | factorial => "FACTORIAL".toList

def description : Growth → Text
  | constant => "Constant time - excellent performance".toList
  | logarithmic => "Logarithmic time - very good performance".toList
  | linear => "Linear time - good performance".toList
  | linearithmic => "Linearithmic time - acceptable performance".toList
  | quadratic => "Quadratic time - poor performance for large inputs".toList
  | cubic => "Cubic time - very poor performance".toList
  | polynomial => "Polynomial time - extremely poor performance".toList
  | exponential => "Exponential time - unacceptable for large inputs".toList
  | factorial => "Factorial time - only suitable for tiny inputs".toList

/-- A one-word judgement of the class. -/
def rating : Growth → Text
  | constant | logarithmic => "Excellent".toList
  | linear | linearithmic => "Good".toList
  | quadratic => "Fair".toList
  | cubic | polynomial => "Poor".toList
  | exponential | factorial => "Critical".toList

/-- The badge colour, as a hexadecimal colour code. -/
def color : Growth → Text
  | constant => "#28a745".toList
  | logarithmic => "#20c997".toList
  | linear => "#ffc107".toList
  | linearithmic => "#fd7e14".toList
  | quadratic => "#dc3545".toList
  | cubic => "#6f42c1".toList
  | polynomial => "#e83e8c".toList
  | exponential => "#343a40".toList
  | factorial => "#000000".toList

/-! ## Laws of the order and the join -/

theorem mem_ascending (g : Growth) : g ∈ ascending := by cases g <;> decide

theorem rank_injective {a b : Growth} (h : a.rank = b.rank) : a = b := by
  cases a <;> cases b <;> first | rfl | exact absurd h (by decide)

theorem rank_join (a b : Growth) : (join a b).rank = max a.rank b.rank := by
  rw [join]
  split <;> omega

theorem ofSymbol?_symbol (g : Growth) : ofSymbol? g.symbol = some g := by
  cases g <;> decide

end Growth

end GrowthEstimate
