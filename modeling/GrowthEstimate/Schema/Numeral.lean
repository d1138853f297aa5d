import GrowthEstimate.Decimal.Numeral
import GrowthEstimate.Schema.Fault
import GrowthEstimate.Text.Lowercase

/-!
# Numbers and truth values given as text

A field that asks for a number or a truth value also takes a text that spells one.  A whole number
in its plain form is read as it stands.  Any other text is cleaned first: margins, a plus sign,
needless zeros, a fraction of zeros and single underscores between digits do not count, and what
is left has to be plain.

* `intOfText_plain`: the plain form needs no cleaning.
-/

namespace GrowthEstimate.Schema

open Decimal (takeDigits takeMinus takeSign takeWhole signed)
open Text (sameIgnoringCase)

/-! ## Cleaning -/

/-- The four characters that separate records and fields: blanks in a source text, but not around
a numeral. -/
def isInformationSeparator (c : Char) : Bool := 0x1C ≤ c.toNat && c.toNat ≤ 0x1F

def isMargin (c : Char) : Bool := Text.isBlank c && !isInformationSeparator c

def withoutMargins (s : Text) : Text := Text.dropEndWhile isMargin (s.dropWhile isMargin)

/-- The text without its underscores, when each of them stands between two other characters. -/
def withoutUnderscores? (s : Text) : Option Text :=
  let groups := s.splitOn '_'
  if groups.any List.isEmpty then none else some groups.flatten

/-- What a numeral without needless zeros may begin with. -/
def leadsNumeral (c : Char) : Bool := c == '-' || (c.isDigit && c != '0')

/-- The numeral behind zeros and underscores, the last of which is `last`; this one is needed in
front of a point, and when nothing follows. -/
def afterZeros? (last : Char) : Text → Option Text
  | [] => some [last]
  | c :: s =>
    if c == '0' || c == '_' then afterZeros? c s
    else if c == '.' then some (last :: c :: s)
    else if leadsNumeral c then some (c :: s)
    else none

/-- A numeral without the needless zeros at its start, and without the underscores among them. -/
def withoutZeros? : Text → Option Text
  | [] => none
  | c :: s =>
    if leadsNumeral c then some (c :: s)
    else if c == '0' then afterZeros? c s
    else none

/-- A numeral without its fraction, when that is a point and only zeros. -/
def withoutFraction (s : Text) : Text :=
  match s.dropWhile (· != '.') with
  | _ :: '0' :: places => if places.all (· == '0') then Text.upTo '.' s else s
  | _ => s

/-- A numeral without all that does not count; none when there is no numeral. -/
def cleaned? (s : Text) : Option Text :=
  match withoutMargins s with
  | '+' :: '-' :: _ => none
  | s =>
    let (negative, rest) := takeSign s
    (withoutZeros? rest).bind fun rest =>
      withoutUnderscores? (withoutFraction (if negative then '-' :: rest else rest))

/-! ## Whole numbers -/

def longestNumeral : Nat := 4300

/-- How many characters of a text make up the whole number at its start, its sign included. -/
def numeralLength (s : Text) : Nat :=
  let (negative, rest) := takeMinus s
  (takeWhole rest).1.length + if negative then 1 else 0

/-- A whole number in its plain form: a minus sign or none, and digits without needless zeros. -/
def plainInt? (s : Text) : Option Int :=
  let (negative, rest) := takeMinus s
  let (digits, rest) := takeWhole rest
  if longestNumeral < numeralLength s || digits.isEmpty || !rest.isEmpty then none
  else some (signed negative digits)

/-- The whole number that a text spells, in its plain form or with what does not count.  A text
that begins with too long a number is not cleaned. -/
def intOfText (s : Text) : Checked Int :=
  if longestNumeral < numeralLength s then .fault .tooLongInteger
  else
    match (plainInt? s).or ((cleaned? s).bind plainInt?) with
    | some n => .accepted n
    | none => .fault .unreadableInteger

theorem intOfText_plain {s : Text} {n : Int} (h : plainInt? s = some n) :
    intOfText s = .accepted n := by
  have short : ¬ longestNumeral < numeralLength s := by
    intro long
    simp [plainInt?, long] at h
  simp [intOfText, short, h]

/-! ## Decimals -/

/-- The digits on both sides of the point at the start of a text, how many of them are behind the
point, and what follows them. -/
def takeMantissa (s : Text) : Text × Nat × Text :=
  let (whole, rest) := takeDigits s
  match rest with
  | '.' :: rest =>
    let (fraction, rest) := takeDigits rest
    (whole ++ fraction, fraction.length, rest)
  | rest => (whole, 0, rest)

/-- The decimal that a text without sign spells, in plain or scientific form. -/
def decimalOfText? (negative : Bool) (s : Text) : Option Decimal :=
  let (digits, places, rest) := takeMantissa s
  let (exponent, rest) := Decimal.takeExponent rest
  if digits.isEmpty || !rest.isEmpty then none
  else some ⟨negative, Decimal.ofDigits digits, exponent.getD 0 - places⟩

/-- The double in its plain form; the names of infinity and of no number count too. -/
def plainFloat? (s : Text) : Option Float :=
  let (negative, s) := takeSign s
  let infinity : Float := 1 / 0
  if sameIgnoringCase s "inf".toList || sameIgnoringCase s "infinity".toList then
    some (if negative then -infinity else infinity)
  else if sameIgnoringCase s "nan".toList then some (0 / 0)
  else (decimalOfText? negative s).map Decimal.toFloat

/-- The double that a text spells, with margins around it or with underscores in it. -/
def floatOfText? (s : Text) : Option Float :=
  (plainFloat? (withoutMargins s)).or ((withoutUnderscores? s).bind plainFloat?)

/-! ## Truth values -/

def yesWords : List Text :=
  ["1".toList, "t".toList, "true".toList, "y".toList, "yes".toList, "on".toList]

def noWords : List Text :=
  ["0".toList, "f".toList, "false".toList, "n".toList, "no".toList, "off".toList]

def boolOfText? (s : Text) : Option Bool :=
  if yesWords.any (sameIgnoringCase s) then some true
  else if noWords.any (sameIgnoringCase s) then some false
  else none

end GrowthEstimate.Schema
