import GrowthEstimate.Decimal.Shortest

/-!
# How a decimal is laid out

The same digits can be written with a point among them or with an exponent behind them.  A layout
says which point positions are written out and what an exponent looks like.
-/

namespace GrowthEstimate.Decimal

/-- The decisions of an output format.  The point of `0.012` stands at -1, that of `12` at 2. -/
structure Layout where
  /-- A point in front of this position is written with an exponent. -/
  leastPoint : Int
  /-- A point behind this position is written with an exponent. -/
  greatestPoint : Int
  /-- The exponent has at least so many digits. -/
  exponentDigits : Nat
  /-- A positive exponent has a plus sign. -/
  plusSign : Bool
  /-- What is written for a double that is no number. -/
  notNumber : Text

/-- The digits of a decimal without the zeros at the end; none for zero. -/
def significant (d : Decimal) : Text :=
  if d.digits = 0 then [] else Text.dropEndWhile (· == '0') (ofNat d.digits)

/-- Digits with the point at the given position, and at least one digit on both sides of it. -/
def positional (digits : Text) (point : Int) : Text :=
  let whole := digits.take point.toNat ++ List.replicate (point.toNat - digits.length) '0'
  let fraction := List.replicate (-point).toNat '0' ++ digits.drop point.toNat
  (if whole.isEmpty then ['0'] else whole) ++ '.' :: (if fraction.isEmpty then ['0'] else fraction)

def exponentText (layout : Layout) (exponent : Int) : Text :=
  let digits := ofNat exponent.natAbs
  let sign := if exponent < 0 then ['-'] else if layout.plusSign then ['+'] else []
  'e' :: sign ++ List.replicate (layout.exponentDigits - digits.length) '0' ++ digits

/-- Digits with the point behind the first of them, and an exponent. -/
def scientific (layout : Layout) (digits : Text) (point : Int) : Text :=
  let fraction := digits.drop 1
  digits.take 1 ++ (if fraction.isEmpty then [] else '.' :: fraction)
    ++ exponentText layout (point - 1)

def text (layout : Layout) (d : Decimal) : Text :=
  let digits := significant d
  let point := if d.digits = 0 then 1 else d.exponent + (ofNat d.digits).length
  (if d.negative then ['-'] else []) ++
    if layout.leastPoint ≤ point && point ≤ layout.greatestPoint then positional digits point
    else scientific layout digits point

/-- The text of a double that is not infinite: the fewest digits that read back, in the given
layout. -/
def floatText (layout : Layout) (x : Float) : Text :=
  if x.isNaN then layout.notNumber else text layout (shortest x)

end GrowthEstimate.Decimal
