import GrowthEstimate.Decimal

/-!
# The parts of a numeral

A numeral is taken apart from its start: a sign, digits, a point with digits behind it, an
exponent.  A part that is not there takes nothing away.
-/

namespace GrowthEstimate.Decimal

def takeDigits (s : Text) : Text × Text := (s.takeWhile Char.isDigit, s.dropWhile Char.isDigit)

/-- A minus sign at the start, if there is one, and what follows it. -/
def takeMinus (s : Text) : Bool × Text :=
  match s with
  | '-' :: s => (true, s)
  | s => (false, s)

/-- A sign at the start, if there is one: whether it is a minus, and what follows it. -/
def takeSign (s : Text) : Bool × Text :=
  match s with
  | '+' :: s => (false, s)
  | s => takeMinus s

/-- The digits of a whole number at the start, and what follows them.  A zero stands alone, so no
digit in front of others is needless. -/
def takeWhole (s : Text) : Text × Text :=
  match s with
  | '0' :: s => (['0'], s)
  | s => takeDigits s

/-- A point and digits at the start, if they are there; the digits, and what follows them. -/
def takeFraction (s : Text) : Text × Text :=
  match s with
  | '.' :: rest => if (takeDigits rest).1.isEmpty then ([], s) else takeDigits rest
  | s => ([], s)

def signed (negative : Bool) (digits : Text) : Int :=
  let n : Int := ofDigits digits
  if negative then -n else n

/-- An exponent at the start, if there is one, and what follows it: a mark, a sign or none, and
digits. -/
def takeExponent (s : Text) : Option Int × Text :=
  match s with
  | [] => (none, [])
  | mark :: rest =>
    let (negative, rest) := takeSign rest
    let (digits, rest) := takeDigits rest
    if (mark == 'e' || mark == 'E') && !digits.isEmpty then (some (signed negative digits), rest)
    else (none, s)

end GrowthEstimate.Decimal
