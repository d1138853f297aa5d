import GrowthEstimate.Text.UnprintableTable

/-!
# Names outside a fixed vocabulary

Growth classes, language families and export formats are read from their names.  A name outside
the vocabulary is refused, with the name as it was given in the message.

A message quotes a text in single quotes, or in double quotes when the text holds single quotes and
no double ones.  The quote in use, the backslash and every unprintable character are escaped, so a
quoted text stays on one line.
-/

namespace GrowthEstimate

namespace Text

def quoteMark (s : Text) : Char :=
  if s.contains '\'' && !s.contains '"' then '"' else '\''

/-- `n` in small hexadecimal digits, filled up with zeros to `width`. -/
def hexDigits (width n : Nat) : Text :=
  let digits := Nat.toDigits 16 n
  List.replicate (width - digits.length) '0' ++ digits

/-- The number of a character, in the shortest of the three escape widths that holds it. -/
def numberEscape (c : Char) : Text :=
  let n := c.toNat
  if n < 0x100 then '\\' :: 'x' :: hexDigits 2 n
  else if n < 0x10000 then '\\' :: 'u' :: hexDigits 4 n
  else '\\' :: 'U' :: hexDigits 8 n

def escapeQuoted (mark c : Char) : Text :=
  if c == mark || c == '\\' then ['\\', c]
  else if c == '\n' then ['\\', 'n']
  else if c == '\r' then ['\\', 'r']
  else if c == '\t' then ['\\', 't']
  else if unprintableRanges.contain c then numberEscape c
  else [c]

def quoted (s : Text) : Text :=
  let mark := quoteMark s
  mark :: s.flatMap (escapeQuoted mark) ++ [mark]

example : quoted "fast".toList = "'fast'".toList := by decide +kernel

example : quoted "it's".toList = "\"it's\"".toList := by decide +kernel

example : quoted "'\"\n".toList = "'\\'\"\\n'".toList := by decide +kernel

end Text

inductive UnknownName
  | growth (given : Text)
  | family (given : Text)
  | format (given : Text)
  deriving DecidableEq

def UnknownName.message : UnknownName → Text
  | .growth given => Text.quoted given ++ " is not a valid ComplexityClass".toList
  | .family given => Text.quoted given ++ " is not a valid LanguageFamily".toList
  | .format given => "Unsupported export format: ".toList ++ given

end GrowthEstimate
