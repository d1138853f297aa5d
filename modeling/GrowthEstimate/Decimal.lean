import GrowthEstimate.Text

/-!
# Decimal numbers

Whole numbers as text, and decimals as a sign, digits and a power of ten.

* `ofDigitsFrom_eq`, `ofDigits_eq`: reading digits in groups gives the number they stand for;
* `ofDigits_ofNat`: the digits of a natural number read back as that number;
* `isDigit_of_mem_ofNat`: they are digits and nothing else.
-/

namespace GrowthEstimate

/-- The number `digits · 10 ^ exponent`, or its negative. -/
structure Decimal where
  negative : Bool
  digits : Nat
  exponent : Int
  deriving DecidableEq

namespace Decimal

def ofNat (n : Nat) : Text := Nat.toDigits 10 n

def ofInt : Int → Text
  | .ofNat n => ofNat n
  | .negSucc n => '-' :: ofNat (n + 1)

/-- A group of digits is closed when its scale has reached this power of ten. -/
def groupScale : Nat := 100000000000000000

/-- The number that digits stand for behind `high * scale + group`.  The digits of a group are put
together before they are added to the number, so that long numbers are seldom multiplied. -/
def ofDigitsFrom (high group scale : Nat) : Text → Nat
  | [] => high * scale + group
  | c :: s =>
    let digit := c.toNat - '0'.toNat
    if scale < groupScale then ofDigitsFrom high (10 * group + digit) (10 * scale) s
    else ofDigitsFrom (high * scale + group) digit 10 s

def ofDigits (digits : Text) : Nat := ofDigitsFrom 0 0 1 digits

/-- No double has a decimal point this far from its digits. -/
def farthestPoint : Int := 400

/-- The double nearest to a decimal, even a zero with its sign; an infinity when it is too large.
A number of `bits + 1` binary digits has more than `bits / 4` decimal ones, and no more than
`bits / 3 + 1`, so decimals far beyond the doubles are told from their sizes. -/
def toFloat (d : Decimal) : Float :=
  let bits : Int := d.digits.log2
  let magnitude : Float :=
    if d.digits = 0 || d.exponent + bits / 3 + 1 < -farthestPoint then 0
    else if farthestPoint < d.exponent + bits / 4 then 1 / 0
    else Float.ofScientific d.digits (d.exponent < 0) d.exponent.natAbs
  if d.negative then -magnitude else magnitude

theorem ofDigitsFrom_eq (high group scale : Nat) (s : Text) :
    ofDigitsFrom high group scale s = Nat.ofDigitChars 10 s (high * scale + group) := by
  induction s generalizing high group scale with
  | nil => rfl
  | cons c s ih =>
    have shift : high * (10 * scale) = 10 * (high * scale) := Nat.mul_left_comm high 10 scale
    have value : Nat.ofDigitChars 10 (c :: s) (high * scale + group)
        = Nat.ofDigitChars 10 s (10 * (high * scale + group) + (c.toNat - '0'.toNat)) := rfl
    rw [ofDigitsFrom, value]
    split
    · rw [ih]
      congr 1
      omega
    · rw [ih]
      congr 1
      omega

theorem ofDigits_eq (s : Text) : ofDigits s = Nat.ofDigitChars 10 s 0 :=
  ofDigitsFrom_eq 0 0 1 s

theorem ofDigits_ofNat (n : Nat) : ofDigits (ofNat n) = n :=
  (ofDigits_eq (ofNat n)).trans (Nat.ofDigitChars_toDigits (by decide) (by decide))

theorem isDigit_of_mem_ofNat {n : Nat} {c : Char} (h : c ∈ ofNat n) : c.isDigit = true :=
  Nat.isDigit_of_mem_toDigits (by decide) (by decide) h

theorem ofNat_ne_nil (n : Nat) : ofNat n ≠ [] :=
  List.ne_nil_of_length_pos Nat.length_toDigits_pos

end Decimal

end GrowthEstimate
