import GrowthEstimate.Decimal.Magnitude

/-!
# The shortest decimal of a double

The fewest digits that read back as the same double and, of those, the nearest to it.  For one
digit, two, and so on up to seventeen the two neighbours of the double on that decimal grid are
tried by reading them; when none of them reads back, all digits of the exact value are given.

* `toFloat_of_shortest?`: what the search gives reads back.
-/

namespace GrowthEstimate.Decimal

/-- The two multiples of `10 ^ exponent` around a double, the nearer one first. -/
def neighbours (x : Float) (exponent : Int) : List Decimal :=
  let v := Magnitude.ofFloat x
  let below := v.stepsBelow exponent
  let lower : Decimal := ⟨isNegative x, below, exponent⟩
  let upper : Decimal := ⟨isNegative x, below + 1, exponent⟩
  if v.roundsUp exponent below then [upper, lower] else [lower, upper]

def readsBackAs (x : Float) (d : Decimal) : Bool := d.toFloat.toBits == x.toBits

/-- More digits than this tell no two doubles apart. -/
def digitLimit : Nat := 17

/-- The first decimal that reads back as the double, by number of digits. -/
def shortest? (x : Float) : Option Decimal :=
  let point := (Magnitude.ofFloat x).pointPosition
  (List.range digitLimit).findSome? fun i =>
    (neighbours x (point - (i + 1 : Nat))).find? (readsBackAs x)

def exact (x : Float) : Decimal :=
  let v := Magnitude.ofFloat x
  let halvings := v.den.log2
  ⟨isNegative x, v.num * power 5 halvings, -(halvings : Int)⟩

def shortest (x : Float) : Decimal :=
  if (Magnitude.ofFloat x).num = 0 then ⟨isNegative x, 0, 0⟩ else (shortest? x).getD (exact x)

theorem toFloat_of_shortest? {x : Float} {d : Decimal} (h : shortest? x = some d) :
    d.toFloat.toBits = x.toBits := by
  rw [shortest?] at h
  obtain ⟨i, _, hi⟩ := List.exists_of_findSome?_eq_some h
  have hd : readsBackAs x d = true := List.find?_some hi
  exact eq_of_beq hd

end GrowthEstimate.Decimal
