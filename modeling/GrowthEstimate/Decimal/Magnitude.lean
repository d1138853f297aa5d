import GrowthEstimate.Decimal

/-!
# The exact value of a double

A finite double is a whole number times a power of two, so its magnitude is a quotient of natural
numbers, and every question about its decimal digits is one about natural numbers.  A share is shown
as a percentage, rounded from the exact value of the double that is a hundred times the share.
-/

namespace GrowthEstimate.Decimal

structure Magnitude where
  num : Nat
  den : Nat
  den_pos : 0 < den

/-- The power of a base, or one for a negative exponent. -/
def power (base : Nat) (exponent : Int) : Nat := Nat.pow base exponent.toNat

namespace Magnitude

/-- The number `m · 2 ^ q`. -/
def scaled (m : Nat) (q : Int) : Magnitude := ⟨m * power 2 q, power 2 (-q), Nat.two_pow_pos _⟩

/-- The fractions of a double, 52 bits wide, are below this number. -/
def fractionEnd : Nat := 0x10000000000000

/-- The exponents of a double, 11 bits wide, are below this number. -/
def exponentEnd : Nat := 0x800

/-- The magnitude of a finite double, from its exponent and fraction bits. -/
def ofFloat (x : Float) : Magnitude :=
  let exponent : Nat := (x.toBits.toNat / fractionEnd) % exponentEnd
  let fraction : Nat := x.toBits.toNat % fractionEnd
  if exponent = 0 then scaled fraction (-1074)
  else scaled (fractionEnd + fraction) ((exponent : Int) - 1075)

/-- How many multiples of `10 ^ exponent` fit into the magnitude. -/
def stepsBelow (v : Magnitude) (exponent : Int) : Nat :=
  v.num * power 10 (-exponent) / (v.den * power 10 exponent)

/-- Whether the magnitude lies above the middle between its neighbouring multiples `steps` and
`steps + 1` of `10 ^ exponent`; in the very middle the even neighbour is the nearer one. -/
def roundsUp (v : Magnitude) (exponent : Int) (steps : Nat) : Bool :=
  let twice := 2 * (v.num * power 10 (-exponent))
  let middle := (2 * steps + 1) * (v.den * power 10 exponent)
  middle < twice || (middle == twice && steps % 2 == 1)

/-- The nearest multiple of `10 ^ exponent`, counted in these steps. -/
def nearestSteps (v : Magnitude) (exponent : Int) : Nat :=
  let steps := v.stepsBelow exponent
  if v.roundsUp exponent steps then steps + 1 else steps

/-- The least `k` for which the magnitude is below `10 ^ k`, for a magnitude that is not zero. -/
def pointPosition (v : Magnitude) : Int :=
  let k : Int := (ofNat v.num).length - (ofNat v.den).length
  if v.num * power 10 (-k) < v.den * power 10 k then k else k + 1

end Magnitude

/-- Whether the sign bit of a double, the highest of 64, is set. -/
def isNegative (x : Float) : Bool := 0x8000000000000000 ≤ x.toBits.toNat

/-- A finite double with one place behind the point, or the short name of no number.  A value in the
very middle between two places goes to the even one. -/
def withOnePlace (x : Float) : Text :=
  let tenths := (Magnitude.ofFloat x).nearestSteps (-1)
  if x.isNaN then "nan".toList
  else (if isNegative x then ['-'] else []) ++ ofNat (tenths / 10) ++ '.' :: ofNat (tenths % 10)

def percentage (share : Float) : Text := withOnePlace (share * 100) ++ ['%']

end GrowthEstimate.Decimal
