import GrowthEstimate.Decimal.Layout
import GrowthEstimate.Json

/-!
# Writing JSON

A value is written compactly or with every part of a container on a line of its own, indented by
a fixed number of spaces per level.  Characters beyond ASCII are written as they are, unless the
text has to be plain ASCII; then they are written by their code units.  A half is always written
by its unit.
-/

namespace GrowthEstimate.Json

structure Style where
  /-- Spaces per level; none for a text without any blank. -/
  indent : Option Nat
  /-- Whether characters beyond ASCII are escaped. -/
  asciiOnly : Bool
  /-- The word for a double that is no number. -/
  notNumber : Text

/-- Numbers are written out down to the fifth place, and with a bare exponent below that. -/
def numberLayout (style : Style) : Decimal.Layout where
  leastPoint := -4
  greatestPoint := 16
  exponentDigits := 1
  plusSign := false
  notNumber := style.notNumber

/-- A code unit as four small hexadecimal digits. -/
def unitText (unit : Nat) : Text :=
  let digits := Nat.toDigits 16 unit
  '\\' :: 'u' :: (List.replicate (4 - digits.length) '0' ++ digits)

def unitsText (c : Char) : Text := (Text.units c).flatMap unitText

def escapeChar (asciiOnly : Bool) (c : Char) : Text :=
  if c == '"' then ['\\', '"']
  else if c == '\\' then ['\\', '\\']
  else if c == '\x08' then ['\\', 'b']
  else if c == '\x0C' then ['\\', 'f']
  else if c == '\n' then ['\\', 'n']
  else if c == '\r' then ['\\', 'r']
  else if c == '\t' then ['\\', 't']
  else if c.toNat < 0x20 || (asciiOnly && 0x7E < c.toNat) then unitsText c
  else [c]

def stringText (asciiOnly : Bool) (s : Text) : Text :=
  '"' :: s.flatMap (escapeChar asciiOnly) ++ ['"']

def escapePoint (asciiOnly : Bool) : CodePoint → Text
  | .char c => escapeChar asciiOnly c
  | .half unit _ => unitText unit

/-- What stands in front of a part on the given level. -/
def lineBreak (style : Style) (level : Nat) : Text :=
  match style.indent with
  | none => []
  | some width => '\n' :: List.replicate (width * level) ' '

def bracketed (style : Style) (level : Nat) (opening closing : Char) (parts : List Text) : Text :=
  if parts.isEmpty then [opening, closing]
  else
    let separator := ',' :: lineBreak style (level + 1)
    opening :: lineBreak style (level + 1) ++ separator.intercalate parts
      ++ lineBreak style level ++ [closing]

def keySeparator (style : Style) : Text := if style.indent.isSome then [':', ' '] else [':']

mutual

/-- The text of a value on the given level. -/
def render (style : Style) (level : Nat) : Json → Text
  | .null => "null".toList
  | .bool true => "true".toList
  | .bool false => "false".toList
  | .int n => Decimal.ofInt n
  | .float x => Decimal.floatText (numberLayout style) x
  | .text s => stringText style.asciiOnly s
  | .points s => '"' :: s.flatMap (escapePoint style.asciiOnly) ++ ['"']
  | .array items => bracketed style level '[' ']' (renderItems style (level + 1) items)
  | .object members =>
    bracketed style level '\x7b' '\x7d' (renderMembers style (level + 1) members)

def renderItems (style : Style) (level : Nat) : List Json → List Text
  | [] => []
  | item :: rest => render style level item :: renderItems style level rest

def renderMembers (style : Style) (level : Nat) : List (Text × Json) → List Text
  | [] => []
  | (key, value) :: rest =>
    (stringText style.asciiOnly key ++ keySeparator style ++ render style level value)
      :: renderMembers style level rest

end

def write (style : Style) (j : Json) : Text := render style 0 j
end GrowthEstimate.Json
